import IndexQuery.Calendar.Reading
import IndexQuery.Filter.Text
import IndexQuery.Predicate
set_option autoImplicit false

/-! # Filters as conditions

The values of a textual filter get their meaning from the type of the field: `operandOf` reads one
value, and `Filter.condition` turns the whole filter into a condition. A blank value is the absent
operand. -/

namespace IndexQuery

namespace Filter

/-! ## Values -/

def refuse {α : Type} (fault : RequestFault) : Except QueryError α := .error (.invalidRequest fault)

/-- A number, blanks around it left aside. -/
def numberOf (raw : List Char) : Except QueryError Double :=
  let s := Text.trim raw
  match (Double.ofText? s).filter (!·.isNaN) with
  | some x => .ok x
  | none => refuse (.badNumber (String.ofList s))

/-- A truth value, blanks around it and its case left aside. -/
def booleanOf (raw : List Char) : Except QueryError Bool :=
  let word := String.ofList (Text.lowerLatin (Text.trim raw))
  if ["true", "1", "yes"].contains word then .ok true
  else if ["false", "0", "no"].contains word then .ok false
  else refuse (.badBoolean word)

/-- An instant, a day, or a number of milliseconds, tried in this order. -/
def dateOf (raw : List Char) : Except QueryError Operand :=
  match Instant.ofText? raw with
  | some t => .ok (.instant t)
  | none =>
    match Date.ofText? raw with
    | some d => .ok (.date d)
    | none =>
      match Number.int64? raw with
      | some n => .ok (.int n)
      | none => refuse (.badDate (String.ofList raw))

/-- A value as the type of the field reads it. Texts and tags keep the blanks around them. -/
def operandOf (f : Field) (raw : List Char) : Except QueryError Operand :=
  let s := Text.trim raw
  if s.isEmpty then .ok .null
  else match f.type with
    | .text | .tag => .ok (.text (String.ofList raw))
    | .numeric =>
      match Number.int64? s with
      | some n => .ok (.int n)
      | none => (numberOf s).map .float
    | .date => dateOf s
    | .boolean => (booleanOf s).map .bool
    | .geo | .vector => refuse (.notScalar f.name)

/-- An end of a range; a blank and the wildcard leave it open. -/
def boundOf (f : Field) (raw : Option (List Char)) : Except QueryError (Option Operand) :=
  match raw with
  | none => .ok none
  | some raw =>
    let s := Text.trim raw
    if s.isEmpty || s == ['*'] then .ok none else (operandOf f s).map some

/-! ## Conditions -/

def rawValues (filter : Filter) : List (List Char) := filter.values.map String.toList

/-- The first value; none is the empty one. -/
def firstValue (filter : Filter) : List Char := filter.rawValues.head?.getD []

/-- The condition of a range: both ends, or a comparison with one. -/
def rangeCondition (f : Field) (filter : Filter) : Except QueryError Condition := do
  let lower ← boundOf f filter.rawValues[0]?
  let upper ← boundOf f filter.rawValues[1]?
  match lower, upper with
  | some low, some high => .ok (.between low high)
  | some low, none => .ok (.atLeast low)
  | none, some high => .ok (.atMost high)
  | none, none => refuse (.noBound f.name)

/-- The condition of a circle, from its four values. -/
def nearCondition (f : Field) (filter : Filter) : Except QueryError Condition :=
  match filter.rawValues with
  | [lon, lat, radius, unit] =>
    match GeoUnit.ofText? (String.ofList unit) with
    | none => refuse (.unknownUnit (String.ofList unit))
    | some unit => do
      let lon ← numberOf lon
      let lat ← numberOf lat
      let radius ← numberOf radius
      .ok (.near ⟨lon, lat⟩ radius unit)
  | _ => refuse (.nearParts f.name)

/-- The condition a filter asks of a field. -/
def condition (f : Field) (filter : Filter) : Except QueryError Condition :=
  let single := operandOf f filter.firstValue
  let many := (filter.rawValues.mapM (operandOf f)).map Operand.list
  let whole : Operand := .text (String.ofList filter.firstValue)
  match filter.operator with
  | .eq => single.map .equal
  | .ne => single.map .notEqual
  | .gt => single.map .greaterThan
  | .gte => single.map .atLeast
  | .lt => single.map .lessThan
  | .lte => single.map .atMost
  | .range => rangeCondition f filter
  | .isIn => many.map .isIn
  | .notIn => many.map .notIn
  | .all => many.map .containsAll
  | .bool => (booleanOf filter.firstValue).map fun b => if b then .isTrue else .isFalse
  | .missing => .ok .isMissing
  | .starts => .ok (.startsWith whole)
  | .ends => .ok (.endsWith whole)
  | .contains => .ok (.containing whole)
  | .fuzzy => .ok (.like whole)
  | .near => nearCondition f filter

/-- The predicate a filter asks of a field. -/
def predicate (f : Field) (filter : Filter) : Except QueryError Predicate :=
  (filter.condition f).bind (Predicate.of f)

end Filter

end IndexQuery
