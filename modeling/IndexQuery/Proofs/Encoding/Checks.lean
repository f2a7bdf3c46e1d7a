import IndexQuery.Proofs.Encoding.Sources
import IndexQuery.Proofs.Number.Arithmetic
set_option autoImplicit false

/-! # The checks of operands

Encoding an operand either succeeds or reports what is wrong with it, and which of the two can be
said without running it. An operand suits a field when its kind is one that the type of the field
holds, and it is a number if it stands for one (`Suits`); every other operand is refused as what it
is (`refusal`). A circle is checked for its radius, its longitude and its latitude (`CircleFault`),
a search for the dimension, the number of neighbours, the components and the distance
(`SearchFault`): the first that is wrong is reported. -/

namespace IndexQuery

/-! ## Operands that suit a type -/

namespace Operand

/-- The values that stand for a number. -/
def isNumeric : Operand → Bool
  | int _ | float _ | decimal _ | date _ | instant _ | localTime _ => true
  | _ => false

/-- The values that stand for a number without being one. -/
def isNaN : Operand → Bool
  | float x => x.isNaN
  | decimal d => d.toDouble.isNaN
  | _ => false

end Operand

/-- Whether fields of the type hold values of the kind. -/
def FieldType.holds (type : FieldType) (v : Operand) : Bool :=
  match type, v with
  | .text, .text _ | .tag, .text _ | .tag, .int _ | .boolean, .bool _ => true
  | .numeric, v | .date, v => v.isNumeric
  | _, _ => false

namespace Encoding

/-- An operand of a kind that the field holds, and a number if it stands for one. -/
def Suits (f : Field) (v : Operand) : Prop := f.type.holds v = true ∧ v.isNaN = false

instance (f : Field) (v : Operand) : Decidable (Suits f v) :=
  inferInstanceAs (Decidable (_ ∧ _))

/-- The error of an operand that does not suit a field. -/
def refusal (f : Field) (v : Operand) : QueryError :=
  .typeMismatch f.name f.type (if f.type.holds v then "NaN" else v.kindName)

variable {f : Field} {op : Operator} {v : Operand}

theorem number?_of_isNumeric (hv : v.isNumeric = true) :
    ∃ x, number? v = some x ∧ x.isNaN = v.isNaN := by
  cases v with
  | int n => exact ⟨_, rfl, Double.isNaN_ofInt n⟩
  | float x => exact ⟨x, rfl, rfl⟩
  | decimal d => exact ⟨_, rfl, rfl⟩
  | date d => exact ⟨_, rfl, Double.isNaN_ofInt d.millis⟩
  | instant t | localTime t => exact ⟨_, rfl, Double.isNaN_ofInt t.millis⟩
  | _ => cases hv

theorem number?_of_not_isNumeric (hv : v.isNumeric = false) : number? v = none := by
  cases v with
  | int _ | float _ | decimal _ | date _ | instant _ | localTime _ => cases hv
  | _ => rfl

/-! ## Encoding single operands -/

theorem numericOperand_of_isNumeric (hv : v.isNumeric = true) (hnan : v.isNaN = false) :
    ∃ x, numericOperand f v = .ok x := by
  obtain ⟨x, hx, hxnan⟩ := number?_of_isNumeric hv
  refine ⟨x, ?_⟩
  rw [hnan] at hxnan
  simp [numericOperand, hx, hxnan]

/-- On fields that hold numbers, an operand that does not suit them is refused as what it is. -/
theorem numericOperand_of_not_suits (hf : f.type = .numeric ∨ f.type = .date) (hv : ¬ Suits f v) :
    numericOperand f v = .error (refusal f v) := by
  have hholds : f.type.holds v = v.isNumeric := by
    rcases hf with hf | hf <;> rw [hf] <;> rfl
  unfold Suits at hv
  unfold refusal
  rw [hholds] at hv ⊢
  cases hnumeric : v.isNumeric with
  | false =>
      simp only [numericOperand, number?_of_not_isNumeric hnumeric]
      rfl
  | true =>
      obtain ⟨x, hx, hxnan⟩ := number?_of_isNumeric hnumeric
      have hnan : v.isNaN = true := by simpa [hnumeric] using hv
      simp [numericOperand, hx, hxnan, hnan]

theorem stringOperand_of_suits (hf : f.type = .text ∨ f.type = .tag) (hv : Suits f v) :
    ∃ s, stringOperand f v = .ok s := by
  obtain ⟨hholds, -⟩ := hv
  rcases hf with hf | hf
  · rw [hf] at hholds
    cases v with
    | text s => exact ⟨s, rfl⟩
    | _ => cases hholds
  · rw [hf] at hholds
    cases v with
    | text s => exact ⟨s, rfl⟩
    | int n => exact ⟨toString n, if_pos hf⟩
    | _ => cases hholds

theorem stringOperand_of_not_suits (hf : f.type = .text ∨ f.type = .tag) (hv : ¬ Suits f v) :
    stringOperand f v = .error (refusal f v) := by
  unfold Suits at hv
  unfold refusal
  rcases hf with hf | hf
  · rw [hf] at hv ⊢
    cases v with
    | text s => exact absurd ⟨rfl, rfl⟩ hv
    | int n => simp [stringOperand, hf, FieldType.holds, mismatch]
    | _ => simp [stringOperand, hf, FieldType.holds, mismatch]
  · rw [hf] at hv ⊢
    cases v with
    | text s => exact absurd ⟨rfl, rfl⟩ hv
    | int n => exact absurd ⟨rfl, rfl⟩ hv
    | _ => simp [stringOperand, hf, FieldType.holds, mismatch]

theorem booleanOperand_of_suits (hf : f.type = .boolean) (hv : Suits f v) :
    ∃ b, booleanOperand f v = .ok b := by
  obtain ⟨hholds, -⟩ := hv
  rw [hf] at hholds
  cases v with
  | bool b => exact ⟨b, rfl⟩
  | _ => cases hholds

theorem booleanOperand_of_not_suits (hf : f.type = .boolean) (hv : ¬ Suits f v) :
    booleanOperand f v = .error (refusal f v) := by
  unfold Suits at hv
  unfold refusal
  rw [hf] at hv ⊢
  cases v with
  | bool b => exact absurd ⟨rfl, rfl⟩ hv
  | _ => simp [booleanOperand, hf, FieldType.holds, mismatch]

/-! ## Ends of ranges -/

theorem boundOf_of_suits (hf : f.type = .numeric ∨ f.type = .date) (hne : v.isEmpty = false)
    (hv : Suits f v) : ∃ x, Predicate.boundOf f op v = .ok x := by
  obtain ⟨hholds, hnan⟩ := hv
  have hnumeric : v.isNumeric = true := by
    rcases hf with hf | hf <;> rw [hf] at hholds <;> exact hholds
  unfold Predicate.boundOf
  rw [hne]
  exact numericOperand_of_isNumeric hnumeric hnan

theorem boundOf_of_isEmpty (hv : v.isEmpty = true) :
    Predicate.boundOf f op v = .error (missing f op) := by
  rw [Predicate.boundOf, if_pos hv]

theorem boundOf_of_not_suits (hf : f.type = .numeric ∨ f.type = .date) (hne : v.isEmpty = false)
    (hv : ¬ Suits f v) : Predicate.boundOf f op v = .error (refusal f v) := by
  unfold Predicate.boundOf
  rw [hne]
  exact numericOperand_of_not_suits hf hv

/-! ## Literals -/

theorem equalityLiteral_of_suits (hv : Suits f v) : ∃ l, equalityLiteral f op v = .ok l := by
  unfold equalityLiteral
  have hholds := hv.1
  cases hf : f.type with
  | text => exact map_succeeds _ (stringOperand_of_suits (.inl hf) hv)
  | tag => exact map_succeeds _ (stringOperand_of_suits (.inr hf) hv)
  | boolean => exact map_succeeds _ (booleanOperand_of_suits hf hv)
  | numeric | date =>
      rw [hf] at hholds
      exact map_succeeds _ (numericOperand_of_isNumeric hholds hv.2)
  | geo | vector =>
      rw [hf] at hholds
      cases hholds

theorem equalityLiteral_of_not_suits (hgeo : f.type ≠ .geo) (hvector : f.type ≠ .vector)
    (hv : ¬ Suits f v) : equalityLiteral f op v = .error (refusal f v) := by
  unfold equalityLiteral
  cases hf : f.type with
  | text => exact map_fails _ (stringOperand_of_not_suits (.inl hf) hv)
  | tag => exact map_fails _ (stringOperand_of_not_suits (.inr hf) hv)
  | boolean => exact map_fails _ (booleanOperand_of_not_suits hf hv)
  | numeric => exact map_fails _ (numericOperand_of_not_suits (.inl hf) hv)
  | date => exact map_fails _ (numericOperand_of_not_suits (.inr hf) hv)
  | geo => exact absurd hf hgeo
  | vector => exact absurd hf hvector

/-- The types of fields that can be compared with a pattern of a mode. -/
def TakesPattern (f : Field) (mode : TextMode) : Prop :=
  f.type = .text ∨ f.type = .tag ∧ mode ≠ .fuzzy

/-- Where a field can be compared with a pattern, only its text is left to encode. -/
theorem patternLiteral_eq {mode : TextMode} (hf : TakesPattern f mode) (op : Operator)
    (v : Operand) :
    ∃ make : String → Literal, patternLiteral f op v mode = (stringOperand f v).map make := by
  unfold patternLiteral
  rcases hf with hf | ⟨hf, hmode⟩
  · rw [hf]
    exact ⟨_, rfl⟩
  · rw [hf]
    cases mode with
    | fuzzy => exact absurd rfl hmode
    | exact | starts | ends | contains => exact ⟨_, rfl⟩

/-! ## Circles -/

variable {f : Field} {center : GeoPoint} {radius : Double} {unit : GeoUnit} {e : QueryError}

/-- A finite number above zero. -/
def IsRadius (x : Double) : Prop := x.isFinite = true ∧ (Double.zero false).lt x = true

/-- Between a limit and its negation. -/
def IsWithin (limit x : Double) : Prop := limit.neg.le x = true ∧ x.le limit = true

/-- What is wrong with a circle: the radius, else the longitude, else the latitude. -/
inductive CircleFault (center : GeoPoint) (radius : Double) : GeoFault → Prop
  | radius : ¬ IsRadius radius → CircleFault center radius (.radius radius)
  | longitude : IsRadius radius → ¬ IsWithin maxLongitude center.lon →
      CircleFault center radius (.longitude center.lon)
  | latitude : IsRadius radius → IsWithin maxLongitude center.lon →
      ¬ IsWithin maxLatitude center.lat →
      CircleFault center radius (.latitude center.lat maxLatitude)

theorem refusesRadius_iff :
    (!radius.isFinite || radius.le (Double.zero false)) = true ↔ ¬ IsRadius radius := by
  have hzero : (Double.zero false).isNaN = false := by decide
  constructor
  · rintro h ⟨hfinite, hpositive⟩
    rw [hfinite, Bool.not_true, Bool.false_or] at h
    obtain ⟨-, -, hle⟩ := Double.le_iff.mp h
    obtain ⟨-, -, hlt⟩ := Double.lt_iff.mp hpositive
    omega
  · intro h
    by_contra hpasses
    simp only [Bool.or_eq_true, Bool.not_eq_true', not_or, Bool.not_eq_false,
      Bool.not_eq_true] at hpasses
    obtain ⟨hfinite, hle⟩ := hpasses
    exact h ⟨hfinite, Double.lt_of_not_le (Double.isNaN_of_isFinite hfinite) hzero hle⟩

theorem refusesCoordinate_iff {limit x : Double} (hlimit : limit.isFinite = true) :
    (!x.isFinite || limit.lt x.abs) = true ↔ ¬ IsWithin limit x := by
  constructor
  · rintro h ⟨hlower, hupper⟩
    obtain ⟨hfinite, habs⟩ := Double.abs_of_between hlimit hlower hupper
    rw [hfinite, habs] at h
    cases h
  · intro h
    by_contra hpasses
    simp only [Bool.or_eq_true, Bool.not_eq_true', not_or, Bool.not_eq_false,
      Bool.not_eq_true] at hpasses
    obtain ⟨hfinite, habs⟩ := hpasses
    exact h (Double.between_of_abs (Double.isNaN_of_isFinite hfinite)
      (Double.isNaN_of_isFinite hlimit) habs)

theorem isFinite_limits : maxLongitude.isFinite = true ∧ maxLatitude.isFinite = true := by
  decide +kernel

theorem geoCircle_of_fault {fault : GeoFault} (h : CircleFault center radius fault) :
    geoCircle f center radius unit = .error (.invalidGeoParameter f.name fault) := by
  obtain ⟨hlongitude, hlatitude⟩ := isFinite_limits
  unfold geoCircle
  cases h with
  | radius hr => rw [if_pos (refusesRadius_iff.mpr hr)]
  | longitude hr hlon =>
      rw [if_neg (mt refusesRadius_iff.mp (not_not_intro hr)),
        if_pos ((refusesCoordinate_iff hlongitude).mpr hlon)]
  | latitude hr hlon hlat =>
      rw [if_neg (mt refusesRadius_iff.mp (not_not_intro hr)),
        if_neg (mt (refusesCoordinate_iff hlongitude).mp (not_not_intro hlon)),
        if_pos ((refusesCoordinate_iff hlatitude).mpr hlat)]

theorem geoCircle_of_fits (hr : IsRadius radius) (hlon : IsWithin maxLongitude center.lon)
    (hlat : IsWithin maxLatitude center.lat) :
    geoCircle f center radius unit = .ok ⟨center, radius, unit⟩ := by
  obtain ⟨hlongitude, hlatitude⟩ := isFinite_limits
  unfold geoCircle
  rw [if_neg (mt refusesRadius_iff.mp (not_not_intro hr)),
    if_neg (mt (refusesCoordinate_iff hlongitude).mp (not_not_intro hlon)),
    if_neg (mt (refusesCoordinate_iff hlatitude).mp (not_not_intro hlat))]

/-! ## Neighbours -/

variable {op : Operator} {params : VectorParams} {vector : List Single} {k : Nat}
  {threshold : Option Double}

/-- A finite number that is not below zero. -/
def IsBound (x : Double) : Prop := x.isFinite = true ∧ (Double.zero false).le x = true

/-- A search for some neighbours of a finite vector of the dimension of the field, within a distance
if one is given. -/
structure IsSearch (params : VectorParams) (vector : List Single) (k : Nat)
    (threshold : Option Double) : Prop where
  dimension : vector.length = params.dimension
  wanted : k ≠ 0
  finite : ∀ x ∈ vector, x.isFinite = true
  bound : ∀ x, threshold = some x → IsBound x

/-- What is wrong with a search: the dimension, else the number of neighbours, else a component,
else the distance. -/
inductive SearchFault (f : Field) (params : VectorParams) (vector : List Single) (k : Nat)
    (threshold : Option Double) : QueryError → Prop
  | dimension : vector.length ≠ params.dimension →
      SearchFault f params vector k threshold
        (.dimensionMismatch f.name params.dimension vector.length)
  | noNeighbours : vector.length = params.dimension → k = 0 →
      SearchFault f params vector k threshold (.invalidVectorParameter f.name .noNeighbours)
  | notFinite {x : Single} : vector.length = params.dimension → k ≠ 0 → x ∈ vector →
      x.isFinite = false →
      SearchFault f params vector k threshold (.invalidVectorParameter f.name .notFinite)
  | threshold {bound : Double} : vector.length = params.dimension → k ≠ 0 →
      (∀ x ∈ vector, x.isFinite = true) → threshold = some bound → ¬ IsBound bound →
      SearchFault f params vector k threshold
        (.invalidVectorParameter f.name (.threshold bound))

theorem isThreshold_iff {x : Double} : isThreshold x = true ↔ IsBound x := by
  have hzero : (Double.zero false).isNaN = false := by decide
  unfold isThreshold IsBound
  rw [Bool.and_eq_true, Bool.not_eq_true']
  refine and_congr_right fun hfinite => ?_
  constructor
  · exact Double.le_of_not_lt (Double.isNaN_of_isFinite hfinite) hzero
  · intro hle
    rw [← Bool.not_eq_true]
    intro hlt
    obtain ⟨-, -, hrank⟩ := Double.lt_iff.mp hlt
    obtain ⟨-, -, hle⟩ := Double.le_iff.mp hle
    omega

theorem exists_vectorParams (hf : f.type = .vector) : ∃ params, f.vectorParams = some params := by
  unfold Field.type at hf
  unfold Field.vectorParams
  cases hkind : f.kind with
  | vector params => exact ⟨params, rfl⟩
  | _ =>
      rw [hkind] at hf
      cases hf

theorem knnClause_of_otherKind {v : Operand} (hf : f.type = .vector)
    (hv : ∀ vector, v ≠ .vector vector) : knnClause f op v k threshold = .error (mismatch f v) := by
  obtain ⟨params, hparams⟩ := exists_vectorParams hf
  unfold knnClause
  rw [hparams]
  cases v with
  | vector vector => exact absurd rfl (hv vector)
  | _ => rfl

theorem knnClause_of_fault (hparams : f.vectorParams = some params)
    (h : SearchFault f params vector k threshold e) :
    knnClause f op (.vector vector) k threshold = .error e := by
  simp only [knnClause, hparams]
  cases h with
  | dimension hlength => rw [if_pos hlength]
  | noNeighbours hlength hk => rw [if_neg (not_not_intro hlength), if_pos hk]
  | notFinite hlength hk hx hinfinite =>
      have hany : vector.any (!·.isFinite) = true :=
        List.any_eq_true.mpr ⟨_, hx, by rw [hinfinite]; rfl⟩
      rw [if_neg (not_not_intro hlength), if_neg hk, if_pos hany]
  | threshold hlength hk hfinite hbound hx =>
      have hany : ¬ vector.any (!·.isFinite) = true := by simpa using hfinite
      have hrefused := mt isThreshold_iff.mp hx
      have hgiven : threshold.filter (!isThreshold ·) = threshold := by
        rw [hbound]
        simp [hrefused]
      rw [if_neg (not_not_intro hlength), if_neg hk, if_neg hany, hgiven, hbound]

theorem knnClause_of_fits (hparams : f.vectorParams = some params)
    (h : IsSearch params vector k threshold) :
    ∃ clause, knnClause f op (.vector vector) k threshold = .ok clause := by
  have hany : ¬ vector.any (!·.isFinite) = true := by simpa using h.finite
  have hgiven : threshold.filter (!isThreshold ·) = none := by
    refine Option.filter_eq_none_iff.mpr fun x hx => ?_
    simpa using isThreshold_iff.mpr (h.bound x hx)
  simp only [knnClause, hparams]
  rw [if_neg (not_not_intro h.dimension), if_neg h.wanted, if_neg hany, hgiven]
  exact ⟨_, rfl⟩

end Encoding

end IndexQuery
