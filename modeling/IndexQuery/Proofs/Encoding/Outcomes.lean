import IndexQuery.Proofs.Encoding.Checks
import IndexQuery.Proofs.Encoding.Fitting
set_option autoImplicit false

/-! # What becomes of a condition

A condition on a field has a predicate or a reason why it has none. Whether the operator is defined
for the type of the field is asked before anything else. After that there are five ways a condition
can go: nine operators encode operands of a kind that the type of the field holds, unless there are
none; five need the ends of a range, which are numbers; three need nothing; and circles and searches
for neighbours have checks of their own. `Answerable` says when a condition has a predicate,
`Refuses` which error it has otherwise, and every condition is one or the other
(`answerable_or_refuses`). The operator alone decides about itself: no check behind the first one
reports it (`exact_outcomes`). -/

namespace IndexQuery

/-! ## Conditions by what they encode -/

namespace Condition

open Encoding Predicate

/-- The operand that may be empty: the condition then asks for nothing. -/
def optional? : Condition → Option Operand
  | equal v | notEqual v | isIn v | notIn v | containsAll v => some v
  | startsWith v | endsWith v | containing v | like v => some v
  | _ => none

/-- The operands that are encoded one by one. -/
def encoded (c : Condition) : List Operand :=
  match c.pattern? with
  | some (v, _) => [v]
  | none => c.comparands

/-- The ends of a range, the lower one first. -/
def ends : Condition → List Operand
  | between lower upper => [lower, upper]
  | greaterThan v | atLeast v | lessThan v | atMost v => [v]
  | _ => []

/-- The encoding of a single operand. -/
def literal (f : Field) (c : Condition) (v : Operand) : Except QueryError Literal :=
  match c.pattern? with
  | some (_, mode) => patternLiteral f c.operator v mode
  | none => equalityLiteral f c.operator v

variable {f : Field} {c : Condition} {v w : Operand}

/-- A field that supports the operator can be compared with the pattern. -/
theorem takesPattern_of_supports {mode : TextMode} (hp : c.pattern? = some (v, mode))
    (hsupported : c.operator.supports f.type = true) : TakesPattern f mode := by
  have htype := Operator.mem_types hsupported
  cases c with
  | startsWith w | endsWith w | containing w =>
      cases hp
      rcases List.mem_cons.mp htype with hf | hf
      · exact .inl hf
      · exact .inr ⟨List.mem_singleton.mp hf, by decide⟩
  | like w =>
      cases hp
      exact .inl (List.mem_singleton.mp htype)
  | _ => cases hp

theorem unconstrainedWhenEmpty_of_optional? (hc : c.optional? = some v) :
    c.operator.unconstrainedWhenEmpty = true := by
  cases c with
  | equal w | notEqual w | isIn w | notIn w | containsAll w => rfl
  | startsWith w | endsWith w | containing w | like w => rfl
  | _ => cases hc

theorem ends_of_optional? (hc : c.optional? = some v) : c.ends = [] := by
  cases c with
  | equal w | notEqual w | isIn w | notIn w | containsAll w => rfl
  | startsWith w | endsWith w | containing w | like w => rfl
  | _ => cases hc

/-- No operator that takes empty operands is defined for geo or vector fields. -/
theorem types_of_supports (hc : c.optional? = some v)
    (hsupported : c.operator.supports f.type = true) : f.type ≠ .geo ∧ f.type ≠ .vector := by
  have hall : ∀ op : Operator, op.unconstrainedWhenEmpty = true →
      op.supports .geo = false ∧ op.supports .vector = false := by
    intro op
    cases op <;> decide
  obtain ⟨hgeo, hvector⟩ := hall c.operator (unconstrainedWhenEmpty_of_optional? hc)
  constructor
  · intro hf
    rw [hf, hgeo] at hsupported
    cases hsupported
  · intro hf
    rw [hf, hvector] at hsupported
    cases hsupported

theorem literal_of_suits (hsupported : c.operator.supports f.type = true) (hw : Suits f w) :
    ∃ l, c.literal f w = .ok l := by
  unfold literal
  cases hp : c.pattern? with
  | none => exact equalityLiteral_of_suits hw
  | some pattern =>
      obtain ⟨v, mode⟩ := pattern
      have hf := takesPattern_of_supports hp hsupported
      obtain ⟨make, hmake⟩ := patternLiteral_eq hf c.operator w
      simp only [hmake]
      exact map_succeeds make (stringOperand_of_suits (hf.imp_right And.left) hw)

theorem literal_of_not_suits (hc : c.optional? = some v)
    (hsupported : c.operator.supports f.type = true) (hw : ¬ Suits f w) :
    c.literal f w = .error (refusal f w) := by
  unfold literal
  cases hp : c.pattern? with
  | none =>
      obtain ⟨hgeo, hvector⟩ := types_of_supports hc hsupported
      exact equalityLiteral_of_not_suits hgeo hvector hw
  | some pattern =>
      obtain ⟨v, mode⟩ := pattern
      have hf := takesPattern_of_supports hp hsupported
      obtain ⟨make, hmake⟩ := patternLiteral_eq hf c.operator w
      simp only [hmake]
      exact map_fails make (stringOperand_of_not_suits (hf.imp_right And.left) hw)

/-- Encoding one operand is encoding a list of one. -/
theorem map_eq_map_mapM {g : Operand → Except QueryError Literal} (make : Literal → Criterion)
    (v : Operand) : ∃ makeOf, (g v).map make = ([v].mapM g).map makeOf := by
  refine ⟨fun literals => (literals.head?.map make).getD .unconstrained, ?_⟩
  rw [List.mapM_cons, List.mapM_nil]
  cases g v with
  | error e => rfl
  | ok l => rfl

/-- Nine conditions encode operands one by one, unless their operand is empty. -/
theorem criterionOf_of_optional? (hc : c.optional? = some v) :
    ∃ make, criterionOf f c =
      unlessEmpty f c.operator v ((c.encoded.mapM (c.literal f)).map make) := by
  have hsingle : ∀ (g : Operand → Except QueryError Literal) (make : Literal → Criterion) (op w),
      ∃ makeOf, unlessEmpty f op w ((g w).map make)
        = unlessEmpty f op w (([w].mapM g).map makeOf) := by
    intro g make op w
    obtain ⟨makeOf, h⟩ := map_eq_map_mapM (g := g) make w
    exact ⟨makeOf, by rw [h]⟩
  cases c with
  | equal w => cases hc; exact hsingle (equalityLiteral f .equal) _ _ v
  | notEqual w => cases hc; exact hsingle (equalityLiteral f .notEqual) _ _ v
  | isIn w | notIn w | containsAll w => cases hc; exact ⟨_, rfl⟩
  | startsWith w =>
      cases hc
      exact hsingle (fun w => patternLiteral f .startsWith w .starts) _ _ v
  | endsWith w => cases hc; exact hsingle (fun w => patternLiteral f .endsWith w .ends) _ _ v
  | containing w =>
      cases hc
      exact hsingle (fun w => patternLiteral f .containing w .contains) _ _ v
  | like w => cases hc; exact hsingle (fun w => patternLiteral f .like w .fuzzy) _ _ v
  | _ => cases hc

/-- Five conditions need the ends of a range. -/
theorem criterionOf_of_ends (hc : c.ends ≠ []) :
    ∃ make, criterionOf f c = (c.ends.mapM (boundOf f c.operator)).map make := by
  have hsingle : ∀ (op : Operator) (range : Double → NumericRange) (v : Operand),
      ∃ make, comparison f op v range = ([v].mapM (boundOf f op)).map make := by
    intro op range v
    refine ⟨fun bounds => .term (.numeric (range (bounds.headD (.zero false)))), ?_⟩
    rw [comparison, List.mapM_cons, List.mapM_nil]
    cases boundOf f op v with
    | error e => rfl
    | ok x => rfl
  cases c with
  | between lower upper =>
      refine ⟨fun bounds => .term (.numeric (.between (bounds.headD (.zero false))
        (bounds.getLastD (.zero false)))), ?_⟩
      show (boundOf f .between lower).bind (fun low => (boundOf f .between upper).bind _) =
        ([lower, upper].mapM (boundOf f .between)).map _
      rw [List.mapM_cons, List.mapM_cons, List.mapM_nil]
      cases boundOf f .between lower with
      | error e => rfl
      | ok low =>
          cases boundOf f .between upper with
          | error e => rfl
          | ok high => rfl
  | greaterThan v | atLeast v | lessThan v | atMost v => exact hsingle _ _ v
  | _ => exact absurd rfl hc

/-- A search encodes its operand, unless it is empty. -/
theorem criterionOf_nearest {k : Nat} {threshold : Option Double} (hv : v.isEmpty = false) :
    criterionOf f (nearest v k threshold) =
      (knnClause f .vectorSimilarity v k threshold).map .nearest :=
  if_neg (Bool.eq_false_iff.mp hv)

theorem isEmpty_vector {vector : List Single} (hne : vector ≠ []) :
    (Operand.vector vector).isEmpty = false :=
  Bool.eq_false_iff.mpr (mt List.isEmpty_iff.mp hne)

theorem numbers_of_ends (hc : c.ends ≠ []) (hsupported : c.operator.supports f.type = true) :
    f.type = .numeric ∨ f.type = .date := by
  have htype := Operator.mem_types hsupported
  have htypes : c.operator.types = [.numeric, .date] := by
    cases c with
    | between lower upper => rfl
    | greaterThan v | atLeast v | lessThan v | atMost v => rfl
    | _ => exact absurd rfl hc
  rw [htypes] at htype
  simpa using htype

/-! ## Outcomes -/

/-- When a condition that is defined for the type of the field has a predicate. -/
inductive Answerable (f : Field) (c : Condition) : Prop
  /-- an empty operand asks for nothing -/
  | nothing {v : Operand} : c.optional? = some v → v.isEmpty = true → Answerable f c
  /-- all operands suit the field -/
  | values {v : Operand} : c.optional? = some v → v.isEmpty = false →
      (∀ w ∈ c.encoded, Suits f w) → Answerable f c
  /-- the ends of the range are there and suit the field -/
  | ends : c.ends ≠ [] → (∀ w ∈ c.ends, w.isEmpty = false ∧ Suits f w) → Answerable f c
  /-- nothing is compared with -/
  | constant : c = .isTrue ∨ c = .isFalse ∨ c = .isMissing → Answerable f c
  | circle {center : GeoPoint} {radius : Double} {unit : GeoUnit} : c = .near center radius unit →
      IsRadius radius → IsWithin maxLongitude center.lon → IsWithin maxLatitude center.lat →
      Answerable f c
  | search {vector : List Single} {k : Nat} {threshold : Option Double} {params : VectorParams} :
      c = .nearest (.vector vector) k threshold → vector ≠ [] → f.vectorParams = some params →
      IsSearch params vector k threshold → Answerable f c

/-- Why a condition that is defined for the type of the field has no predicate. -/
inductive Refuses (f : Field) (c : Condition) : QueryError → Prop
  /-- the first operand that does not suit the field -/
  | unfit {v w : Operand} {before after : List Operand} : c.optional? = some v →
      v.isEmpty = false → c.encoded = before ++ w :: after → (∀ u ∈ before, Suits f u) →
      ¬ Suits f w → Refuses f c (refusal f w)
  /-- an end of the range is empty, and the one before it is not to blame -/
  | emptyEnd {w : Operand} {before after : List Operand} : c.ends = before ++ w :: after →
      (∀ u ∈ before, u.isEmpty = false ∧ Suits f u) → w.isEmpty = true →
      Refuses f c (missing f c.operator)
  /-- an end of the range does not suit the field, and the one before it is not to blame -/
  | unfitEnd {w : Operand} {before after : List Operand} : c.ends = before ++ w :: after →
      (∀ u ∈ before, u.isEmpty = false ∧ Suits f u) → w.isEmpty = false → ¬ Suits f w →
      Refuses f c (refusal f w)
  | circle {center : GeoPoint} {radius : Double} {unit : GeoUnit} {fault : GeoFault} :
      c = .near center radius unit → CircleFault center radius fault →
      Refuses f c (.invalidGeoParameter f.name fault)
  /-- the operand of a search is empty -/
  | noVector {v : Operand} {k : Nat} {threshold : Option Double} : c = .nearest v k threshold →
      v.isEmpty = true → Refuses f c (missing f c.operator)
  /-- the operand of a search is no vector -/
  | otherKind {v : Operand} {k : Nat} {threshold : Option Double} : c = .nearest v k threshold →
      v.isEmpty = false → (∀ vector, v ≠ .vector vector) → Refuses f c (mismatch f v)
  | search {vector : List Single} {k : Nat} {threshold : Option Double} {params : VectorParams}
      {e : QueryError} : c = .nearest (.vector vector) k threshold → vector ≠ [] →
      f.vectorParams = some params → SearchFault f params vector k threshold e → Refuses f c e

variable {f : Field} {c : Condition} {e : QueryError}

/-- Either all members of a list pass, or there is a first one that does not. -/
theorem forall_or_exists_first {α : Type} (P : α → Prop) [DecidablePred P] (xs : List α) :
    (∀ x ∈ xs, P x) ∨
      ∃ before x after, xs = before ++ x :: after ∧ (∀ y ∈ before, P y) ∧ ¬ P x := by
  cases hfirst : xs.find? (fun x => !decide (P x)) with
  | none => exact .inl (by simpa using hfirst)
  | some x =>
      obtain ⟨hx, before, after, hxs, hbefore⟩ := List.find?_eq_some_iff_append.mp hfirst
      exact .inr ⟨before, x, after, hxs, by simpa using hbefore, by simpa using hx⟩

theorem answerable_or_refuses_optional {v : Operand} (hc : c.optional? = some v) :
    Answerable f c ∨ ∃ e, Refuses f c e := by
  cases hv : v.isEmpty with
  | true => exact .inl (.nothing hc hv)
  | false =>
      rcases forall_or_exists_first (Suits f) c.encoded with hall | hfirst
      · exact .inl (.values hc hv hall)
      · obtain ⟨before, w, after, hsplit, hbefore, hw⟩ := hfirst
        exact .inr ⟨_, .unfit hc hv hsplit hbefore hw⟩

theorem answerable_or_refuses_ends (hc : c.ends ≠ []) :
    Answerable f c ∨ ∃ e, Refuses f c e := by
  rcases forall_or_exists_first (fun w => w.isEmpty = false ∧ Suits f w) c.ends with hall | hfirst
  · exact .inl (.ends hc hall)
  · obtain ⟨before, w, after, hsplit, hbefore, hw⟩ := hfirst
    cases hempty : w.isEmpty with
    | true => exact .inr ⟨_, .emptyEnd hsplit hbefore hempty⟩
    | false => exact .inr ⟨_, .unfitEnd hsplit hbefore hempty fun hsuits => hw ⟨hempty, hsuits⟩⟩

theorem answerable_or_refuses_near (center : GeoPoint) (radius : Double) (unit : GeoUnit) :
    Answerable f (near center radius unit) ∨ ∃ e, Refuses f (near center radius unit) e := by
  by_cases hr : IsRadius radius
  · by_cases hlon : IsWithin maxLongitude center.lon
    · by_cases hlat : IsWithin maxLatitude center.lat
      · exact .inl (.circle rfl hr hlon hlat)
      · exact .inr ⟨_, .circle rfl (.latitude hr hlon hlat)⟩
    · exact .inr ⟨_, .circle rfl (.longitude hr hlon)⟩
  · exact .inr ⟨_, .circle rfl (.radius hr)⟩

theorem isSearch_or_fault (f : Field) (params : VectorParams) (vector : List Single) (k : Nat)
    (threshold : Option Double) :
    IsSearch params vector k threshold ∨ ∃ e, SearchFault f params vector k threshold e := by
  by_cases hlength : vector.length = params.dimension
  · by_cases hk : k = 0
    · exact .inr ⟨_, .noNeighbours hlength hk⟩
    · rcases forall_or_exists_first (fun x : Single => x.isFinite = true) vector with
        hfinite | ⟨before, x, after, rfl, -, hx⟩
      · by_cases hbound : ∀ x, threshold = some x → IsBound x
        · exact .inl ⟨hlength, hk, hfinite, hbound⟩
        · push Not at hbound
          obtain ⟨x, hx, hrefused⟩ := hbound
          exact .inr ⟨_, .threshold hlength hk hfinite hx hrefused⟩
      · exact .inr ⟨_, .notFinite hlength hk (by simp) (Bool.not_eq_true _ ▸ hx)⟩
  · exact .inr ⟨_, .dimension hlength⟩

theorem answerable_or_refuses_nearest (v : Operand) (k : Nat) (threshold : Option Double)
    (hf : f.type = .vector) :
    Answerable f (nearest v k threshold) ∨ ∃ e, Refuses f (nearest v k threshold) e := by
  obtain ⟨params, hparams⟩ := exists_vectorParams hf
  cases hv : v.isEmpty with
  | true => exact .inr ⟨_, .noVector rfl hv⟩
  | false =>
      cases v with
      | vector vector =>
          have hne : vector ≠ [] := by
            rintro rfl
            cases hv
          rcases isSearch_or_fault f params vector k threshold with hsearch | ⟨e, hfault⟩
          · exact .inl (.search rfl hne hparams hsearch)
          · exact .inr ⟨e, .search rfl hne hparams hfault⟩
      | _ => exact .inr ⟨_, .otherKind rfl hv (by simp)⟩

/-- Every condition that is defined for the type of the field is answerable or has a reason why it
is not. -/
theorem answerable_or_refuses (hsupported : c.operator.supports f.type = true) :
    Answerable f c ∨ ∃ e, Refuses f c e := by
  cases c with
  | equal v | notEqual v | isIn v | notIn v | containsAll v =>
      exact answerable_or_refuses_optional rfl
  | startsWith v | endsWith v | containing v | like v => exact answerable_or_refuses_optional rfl
  | between lower upper => exact answerable_or_refuses_ends (List.cons_ne_nil _ _)
  | greaterThan v | atLeast v | lessThan v | atMost v =>
      exact answerable_or_refuses_ends (List.cons_ne_nil _ _)
  | isTrue => exact .inl (.constant (.inl rfl))
  | isFalse => exact .inl (.constant (.inr (.inl rfl)))
  | isMissing => exact .inl (.constant (.inr (.inr rfl)))
  | near center radius unit => exact answerable_or_refuses_near center radius unit
  | nearest v k threshold =>
      have hf := List.mem_singleton.mp (Operator.mem_types hsupported)
      exact answerable_or_refuses_nearest v k threshold hf

theorem criterionOf_of_answerable (hsupported : c.operator.supports f.type = true)
    (h : Answerable f c) : ∃ criterion, criterionOf f c = .ok criterion := by
  cases h with
  | nothing hc hv =>
      obtain ⟨make, hmake⟩ := criterionOf_of_optional? (f := f) hc
      rw [hmake, unlessEmpty, if_pos hv, if_pos (unconstrainedWhenEmpty_of_optional? hc)]
      exact ⟨_, rfl⟩
  | values hc hv hall =>
      obtain ⟨make, hmake⟩ := criterionOf_of_optional? (f := f) hc
      rw [hmake, unlessEmpty_of_isEmpty_eq_false hv]
      exact map_succeeds make
        (mapM_succeeds_iff.mpr fun w hw => literal_of_suits hsupported (hall w hw))
  | ends hc hall =>
      obtain ⟨make, hmake⟩ := criterionOf_of_ends (f := f) hc
      have hf := numbers_of_ends hc hsupported
      rw [hmake]
      exact map_succeeds make
        (mapM_succeeds_iff.mpr fun w hw => boundOf_of_suits hf (hall w hw).1 (hall w hw).2)
  | constant hc => rcases hc with rfl | rfl | rfl <;> exact ⟨_, rfl⟩
  | circle hc hr hlon hlat =>
      subst hc
      exact map_succeeds _ ⟨_, geoCircle_of_fits hr hlon hlat⟩
  | search hc hne hparams hsearch =>
      subst hc
      rw [criterionOf_nearest (isEmpty_vector hne)]
      exact map_succeeds _ (knnClause_of_fits hparams hsearch)

theorem criterionOf_of_refuses (hsupported : c.operator.supports f.type = true)
    (h : Refuses f c e) : criterionOf f c = .error e := by
  cases h with
  | unfit hc hv hsplit hbefore hw =>
      obtain ⟨make, hmake⟩ := criterionOf_of_optional? (f := f) hc
      rw [hmake, unlessEmpty_of_isEmpty_eq_false hv, hsplit]
      exact map_fails make (mapM_eq_error_of_first
        (fun u hu => literal_of_suits hsupported (hbefore u hu))
        (literal_of_not_suits hc hsupported hw))
  | emptyEnd hsplit hbefore hw =>
      have hc : c.ends ≠ [] := by simp [hsplit]
      obtain ⟨make, hmake⟩ := criterionOf_of_ends (f := f) hc
      have hf := numbers_of_ends hc hsupported
      rw [hmake, hsplit]
      exact map_fails make (mapM_eq_error_of_first
        (fun u hu => boundOf_of_suits hf (hbefore u hu).1 (hbefore u hu).2)
        (boundOf_of_isEmpty hw))
  | unfitEnd hsplit hbefore hne hw =>
      have hc : c.ends ≠ [] := by simp [hsplit]
      obtain ⟨make, hmake⟩ := criterionOf_of_ends (f := f) hc
      have hf := numbers_of_ends hc hsupported
      rw [hmake, hsplit]
      exact map_fails make (mapM_eq_error_of_first
        (fun u hu => boundOf_of_suits hf (hbefore u hu).1 (hbefore u hu).2)
        (boundOf_of_not_suits hf hne hw))
  | circle hc hfault =>
      subst hc
      exact map_fails _ (geoCircle_of_fault hfault)
  | noVector hc hv =>
      subst hc
      exact if_pos hv
  | otherKind hc hne hkind =>
      subst hc
      have hf := List.mem_singleton.mp (Operator.mem_types hsupported)
      rw [criterionOf_nearest hne]
      exact map_fails _ (knnClause_of_otherKind hf hkind)
  | search hc hne hparams hfault =>
      subst hc
      rw [criterionOf_nearest (isEmpty_vector hne)]
      exact map_fails _ (knnClause_of_fault hparams hfault)

/-- A condition with an operand that is not empty is answerable exactly when what it encodes suits
the field. -/
theorem answerable_iff_suits {v : Operand} (hc : c.optional? = some v) (hv : v.isEmpty = false) :
    Answerable f c ↔ ∀ w ∈ c.encoded, Suits f w := by
  refine ⟨fun h => ?_, .values hc hv⟩
  cases h with
  | nothing hc' hempty =>
      rw [hc] at hc'
      cases hc'
      rw [hv] at hempty
      cases hempty
  | values _ _ hall => exact hall
  | ends hends _ => exact absurd (ends_of_optional? hc) hends
  | constant hconstant => rcases hconstant with rfl | rfl | rfl <;> cases hc
  | circle heq _ _ _ =>
      subst heq
      cases hc
  | search heq _ _ _ =>
      subst heq
      cases hc

/-- No check behind the first one reports the operator. -/
theorem ne_unsupported_of_refuses (h : Refuses f c e) (name : String) (op : Operator)
    (type : FieldType) : e ≠ .unsupportedOperator name op type := by
  cases h with
  | search hc hne hparams hfault => cases hfault <;> exact QueryError.noConfusion
  | _ => exact QueryError.noConfusion

end Condition

namespace Predicate

open Encoding Condition

variable {f : Field} {c : Condition} {e : QueryError}

theorem of_of_not_supports (h : c.operator.supports f.type = false) :
    of f c = .error (unsupported f c.operator) := by
  rw [of, h]
  rfl

theorem of_succeeds_of_answerable (hsupported : c.operator.supports f.type = true)
    (h : Answerable f c) : ∃ p, of f c = .ok p := by
  obtain ⟨criterion, hcriterion⟩ := criterionOf_of_answerable hsupported h
  exact ⟨_, of_eq_ok_iff.mpr ⟨hsupported, criterion, hcriterion, rfl⟩⟩

theorem of_of_refuses (hsupported : c.operator.supports f.type = true) (h : Refuses f c e) :
    of f c = .error e := by
  rw [of, if_pos hsupported, criterionOf_of_refuses hsupported h]
  rfl

/-- There is a predicate, or a reason why there is none. -/
theorem of_succeeds_or_refuses (hsupported : c.operator.supports f.type = true) :
    (∃ p, of f c = .ok p) ∨ ∃ e, Refuses f c e :=
  (answerable_or_refuses hsupported).imp_left (of_succeeds_of_answerable hsupported)

theorem of_eq_error_iff (hsupported : c.operator.supports f.type = true) :
    of f c = .error e ↔ Refuses f c e :=
  eq_error_iff_of_cases (fun _ => id) (fun _ => of_of_refuses hsupported)
    (of_succeeds_or_refuses hsupported)

theorem of_succeeds_iff (hsupported : c.operator.supports f.type = true) :
    (∃ p, of f c = .ok p) ↔ Answerable f c := by
  refine ⟨fun ⟨p, hp⟩ => ?_, of_succeeds_of_answerable hsupported⟩
  rcases answerable_or_refuses hsupported with h | ⟨e, h⟩
  · exact h
  · rw [of_of_refuses hsupported h] at hp
    cases hp

/-- The check of the operator comes first, and it alone reports the operator. -/
theorem of_eq_unsupported_iff :
    of f c = .error (unsupported f c.operator) ↔ c.operator.supports f.type = false := by
  refine ⟨fun h => ?_, of_of_not_supports⟩
  rw [← Bool.not_eq_true]
  intro hsupported
  exact ne_unsupported_of_refuses ((of_eq_error_iff hsupported).mp h) _ _ _ rfl

theorem of_of_isEmpty {v : Operand} (hsupported : c.operator.supports f.type = true)
    (hc : c.optional? = some v) (hv : v.isEmpty = true) :
    of f c = .ok ⟨f, c.operator, .unconstrained⟩ := by
  obtain ⟨make, hmake⟩ := criterionOf_of_optional? (f := f) hc
  rw [unlessEmpty, if_pos hv, if_pos (unconstrainedWhenEmpty_of_optional? hc)] at hmake
  exact of_eq_ok_iff.mpr ⟨hsupported, _, hmake, rfl⟩

/-- What becomes of a condition on a field. The type of the field alone decides whether the operator
is refused, whatever the operands are, and no later check refuses it. If it is not, the condition
has a predicate exactly when it is answerable, and otherwise the error that it is refused with. An
empty operand, where an operator takes it, asks for nothing and leaves every tree as it is; any other
operand of these operators is encoded exactly when it suits the field, member by member. A decimal is
a number, so it suits the fields that hold numbers. -/
theorem exact_outcomes :
    (∀ (f : Field) (c : Condition),
      of f c = .error (unsupported f c.operator) ↔ c.operator.supports f.type = false) ∧
    (∀ (f : Field) (c : Condition), c.operator.supports f.type = true →
      ((∃ p, of f c = .ok p) ↔ Answerable f c) ∧
      (∀ e, of f c = .error e ↔ Refuses f c e) ∧
      ∀ e name op type, Refuses f c e → e ≠ .unsupportedOperator name op type) ∧
    (∀ (f : Field) (c : Condition) (v : Operand), c.operator.supports f.type = true →
      c.optional? = some v →
      (v.isEmpty = true → ∃ p, of f c = .ok p ∧ p.criterion = .unconstrained ∧
        ∀ t, p.apply t = t) ∧
      (v.isEmpty = false → ((∃ p, of f c = .ok p) ↔ ∀ w ∈ c.encoded, Suits f w))) ∧
    ∀ d : Decimal, d.scale ≤ 28 → (Operand.decimal d).isNaN = false := by
  refine ⟨fun f c => of_eq_unsupported_iff, fun f c hsupported => ⟨of_succeeds_iff hsupported,
    fun e => of_eq_error_iff hsupported, fun e name op type h => ne_unsupported_of_refuses h _ _ _⟩,
    fun f c v hsupported hc => ⟨fun hv => ?_, fun hv => ?_⟩,
    fun d hscale => Decimal.isNaN_toDouble hscale⟩
  · exact ⟨_, of_of_isEmpty hsupported hc hv, rfl, fun t => rfl⟩
  · rw [of_succeeds_iff hsupported]
    exact answerable_iff_suits hc hv

/-- Conditions on a numeric field: a list with two operands that do not suit it, of which the first
is reported, a list that can be asked for, an empty list, and an operator for texts with an operand
that would be no error. -/
theorem exact_outcomes_numeric :
    let age : Field := ⟨"age", "age", .numeric, false, by decide, by decide, by decide⟩
    let faulty : Condition := .isIn (.list [.int 1, .float .nan, .text "x"])
    let sound : Condition := .isIn (.list [.int 1, .decimal ⟨false, 15, 1⟩])
    let empty : Condition := .isIn (.list [])
    faulty.operator.supports age.type = true ∧
      Refuses age faulty (.typeMismatch "age" .numeric "NaN") ∧
      of age faulty = .error (.typeMismatch "age" .numeric "NaN") ∧
      (Operand.decimal ⟨false, 15, 1⟩).isNaN = false ∧ (∃ p, of age sound = .ok p) ∧
      (∃ p, of age empty = .ok p ∧ p.criterion = .unconstrained ∧ ∀ t, p.apply t = t) ∧
      of age (.like .null) = .error (.unsupportedOperator "age" .like .numeric) := by
  intro age faulty sound empty
  have hsupported : Operator.isIn.supports age.type = true := by decide
  have hfaulty : of age faulty = .error (.typeMismatch "age" .numeric "NaN") := by decide +kernel
  have hdecimal : (Operand.decimal ⟨false, 15, 1⟩).isNaN = false :=
    exact_outcomes.2.2.2 ⟨false, 15, 1⟩ (by decide)
  have hsuits : ∀ w ∈ sound.encoded, Suits age w := by
    intro w hw
    have hcases : w = .int 1 ∨ w = .decimal ⟨false, 15, 1⟩ := by
      simpa [sound, encoded, pattern?, comparands, Operand.members] using hw
    rcases hcases with rfl | rfl
    · exact ⟨rfl, rfl⟩
    · exact ⟨rfl, hdecimal⟩
  exact ⟨hsupported, ((exact_outcomes.2.1 age faulty hsupported).2.1 _).mp hfaulty, hfaulty,
    hdecimal, ((exact_outcomes.2.2.1 age sound _ hsupported rfl).2 rfl).mpr hsuits,
    (exact_outcomes.2.2.1 age empty _ hsupported rfl).1 rfl,
    (exact_outcomes.1 age (.like .null)).mpr rfl⟩

end Predicate

end IndexQuery
