import IndexQuery.Proofs.Encoding.Sources
set_option autoImplicit false

/-! # What the encoding lets through

A predicate that `Predicate.of` returns asks about the field it was given, and its criterion is
*encoded*: bounds are numbers and a range has one, circles have finite parts, patterns on tags have
characters, lists of literals have members, and a search for neighbours has the key and the
parameters of its field (`isEncoded_of`). Rendering and matching rely on nothing else. -/

namespace IndexQuery

/-! ## Encoded criteria -/

/-- Centre and radius are finite. -/
structure GeoCircle.IsEncoded (c : GeoCircle) : Prop where
  lon : c.center.lon.isFinite = true
  lat : c.center.lat.isFinite = true
  radius : c.radius.isFinite = true

/-- Only exact tags may be empty. -/
def Literal.IsEncoded : Literal → Prop
  | text _ _ => True
  | tag mode value => mode = .exact ∨ value ≠ ""
  | numeric range => range.IsEncoded
  | geo circle => circle.IsEncoded
  | missing => True

/-- The clause belongs to a vector field, and its numbers are finite. -/
structure KnnClause.IsEncoded (f : Field) (c : KnnClause) : Prop where
  key : c.key = f.key
  params : ∃ params, f.vectorParams = some params ∧ c.elementType = params.elementType ∧
    c.metric = params.metric
  vector : ∀ x ∈ c.vector, x.isFinite = true
  threshold : ∀ bound, c.threshold = some bound → bound.isFinite = true

/-- Whether the criterion is one for the field. -/
def Criterion.IsEncoded (f : Field) : Criterion → Prop
  | unconstrained => True
  | term literal => literal.IsEncoded
  | anyOf literals => literals ≠ [] ∧ ∀ l ∈ literals, l.IsEncoded
  | allOf literals => literals ≠ [] ∧ ∀ l ∈ literals, l.IsEncoded
  | noneOf literals => literals ≠ [] ∧ ∀ l ∈ literals, l.IsEncoded
  | nearest clause => clause.IsEncoded f

namespace Encoding

/-! ## Literals -/

theorem isEncoded_equalityLiteral {f : Field} {op : Operator} {v : Operand} {l : Literal}
    (h : equalityLiteral f op v = .ok l) : l.IsEncoded := by
  cases encodesValue_of_equalityLiteral h with
  | text hf hs => trivial
  | tag hf hs => exact .inl rfl
  | number hf hx => exact NumericRange.isEncoded_exact (isNaN_of_numericOperand hx)
  | truth hf hb => exact .inl rfl

theorem toString_int_ne_empty (n : Int) : toString n ≠ "" := by
  intro hempty
  rw [Int.toString_eq_repr, Int.repr_eq_if] at hempty
  have hlist := congrArg String.toList hempty
  split at hlist
  · rw [Nat.toList_repr] at hlist
    exact Nat.toDigits_ne_nil hlist
  · rw [String.toList_append] at hlist
    exact absurd (List.append_eq_nil_iff.mp hlist).1 (by decide)

/-- The text of an operand that is not empty has characters. -/
theorem stringOperand_ne_empty {f : Field} {v : Operand} {s : String} (hv : v.isEmpty = false)
    (h : stringOperand f v = .ok s) : s ≠ "" := by
  unfold stringOperand at h
  split at h
  · cases Except.ok.inj h
    rintro rfl
    cases hv
  · split at h
    · cases Except.ok.inj h
      exact toString_int_ne_empty _
    · cases h
  · cases h

theorem isEncoded_patternLiteral {f : Field} {op : Operator} {v : Operand} {mode : TextMode}
    {l : Literal} (hv : v.isEmpty = false) (h : patternLiteral f op v mode = .ok l) :
    l.IsEncoded := by
  cases encodesPattern_of_patternLiteral h with
  | text hf hs => trivial
  | tag hf hmode hs => exact .inr (stringOperand_ne_empty hv hs)

/-! ## Circles and neighbours -/

theorem isEncoded_geoCircle {f : Field} {center : GeoPoint} {radius : Double} {unit : GeoUnit}
    {c : GeoCircle} (h : geoCircle f center radius unit = .ok c) : c.IsEncoded := by
  obtain ⟨rfl, hradius, hlon, hlat⟩ := geoCircle_eq_ok h
  exact ⟨hlon.1, hlat.1, hradius.1⟩

theorem isEncoded_knnClause {f : Field} {op : Operator} {v : Operand} {k : Nat}
    {threshold : Option Double} {c : KnnClause} (h : knnClause f op v k threshold = .ok c) :
    c.IsEncoded f := by
  obtain ⟨params, vector, hparams, _, rfl, _, _, hfinite, hthreshold⟩ := knnClause_eq_ok h
  refine ⟨rfl, ⟨params, hparams, rfl, rfl⟩, hfinite, fun bound hbound => ?_⟩
  have hbounds := hthreshold bound hbound
  simp only [isThreshold, Bool.and_eq_true] at hbounds
  exact hbounds.1

end Encoding

open Encoding

/-! ## Criteria -/

/-- A literal of a criterion is encoded, wherever it comes from. -/
theorem Literal.ComesFrom.isEncoded {f : Field} {c : Condition} {l : Literal}
    (h : l.ComesFrom f c) : l.IsEncoded := by
  cases h with
  | equality hv hkept h => exact isEncoded_equalityLiteral h
  | pattern hc hv h => exact isEncoded_patternLiteral hv h
  | range hop hr => exact hr
  | truth flag hop => exact .inl rfl
  | missing hop => trivial
  | circle hop h => exact isEncoded_geoCircle h

theorem Criterion.ComesFrom.isEncoded {f : Field} {c : Condition} {criterion : Criterion}
    (h : criterion.ComesFrom f c) : criterion.IsEncoded f := by
  cases h with
  | unconstrained => trivial
  | term hl => exact hl.isEncoded
  | anyOf hne hls => exact ⟨hne, fun l hl => (hls l hl).isEncoded⟩
  | allOf hne hls => exact ⟨hne, fun l hl => (hls l hl).isEncoded⟩
  | noneOf hne hls => exact ⟨hne, fun l hl => (hls l hl).isEncoded⟩
  | nearest _ h => exact isEncoded_knnClause h

namespace Predicate

/-- A predicate of a condition asks about the field of the condition, and its criterion is
encoded. -/
theorem isEncoded_of {f : Field} {condition : Condition} {p : Predicate}
    (h : of f condition = .ok p) : p.field = f ∧ p.criterion.IsEncoded f := by
  obtain ⟨hfield, _, hcriterion⟩ := of_eq_ok h
  exact ⟨hfield, (comesFrom_criterionOf hcriterion).isEncoded⟩

end Predicate

end IndexQuery
