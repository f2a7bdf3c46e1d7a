import IndexQuery.Filter.Condition
import IndexQuery.Proofs.Compilation.Parts
import IndexQuery.Proofs.Encoding.Encoded
import IndexQuery.Proofs.Number.Order
set_option autoImplicit false

/-! # Criteria fit the type of their field

Which literals and clauses a field may be asked with is a matter of its type: texts of text fields,
tags of tag fields, the two truth values of boolean fields, ranges of numeric and date fields,
circles on the globe of geo fields, and searches among vectors of the dimension of a vector field;
the absence of a value fits every type (`Literal.Fits`, `KnnClause.Fits`). Whatever operands a
condition or a textual filter came with, the criterion of its predicate fits (`fits_of_isReturned`),
and the tree of a list of such predicates has no alternatives without a member. -/

namespace IndexQuery

open Encoding

/-! ## What fits a type -/

/-- A circle with a positive radius around a point that the index can hold. -/
structure GeoCircle.IsOnGlobe (c : GeoCircle) : Prop where
  finite : c.radius.isFinite = true
  positive : (Double.zero false).lt c.radius = true
  west : maxLongitude.neg.le c.center.lon = true
  east : c.center.lon.le maxLongitude = true
  south : maxLatitude.neg.le c.center.lat = true
  north : c.center.lat.le maxLatitude = true

/-- The literals that fields of a type may be asked with. -/
inductive Literal.Fits : FieldType → Literal → Prop
  | text (mode : TextMode) (value : String) : Fits .text (.text mode value)
  | tag (mode : TagMode) (value : String) : Fits .tag (.tag mode value)
  | boolean (flag : Bool) : Fits .boolean (.tag .exact (if flag then "true" else "false"))
  | numeric {r : NumericRange} (hr : r.IsEncoded) : Fits .numeric (.numeric r)
  | date {r : NumericRange} (hr : r.IsEncoded) : Fits .date (.numeric r)
  | geo {c : GeoCircle} (hc : c.IsOnGlobe) : Fits .geo (.geo c)
  | missing (type : FieldType) : Fits type .missing

/-- A search among the vectors of a field: as many finite components as the field has, at least one
neighbour wanted, and a bound on the distance that a distance can meet. -/
structure KnnClause.Fits (f : Field) (c : KnnClause) : Prop where
  key : c.key = f.key
  dimension : ∃ params, f.vectorParams = some params ∧ c.vector.length = params.dimension
  finite : ∀ x ∈ c.vector, x.isFinite = true
  wanted : 1 ≤ c.k
  threshold : ∀ bound, c.threshold = some bound →
    bound.isFinite = true ∧ (Double.zero false).le bound = true

/-- The criteria that a field may be asked with. -/
def Criterion.Fits (f : Field) : Criterion → Prop
  | unconstrained => True
  | term l => l.Fits f.type
  | anyOf ls => ls ≠ [] ∧ ∀ l ∈ ls, l.Fits f.type
  | allOf ls => ls ≠ [] ∧ ∀ l ∈ ls, l.Fits f.type
  | noneOf ls => ls ≠ [] ∧ ∀ l ∈ ls, l.Fits f.type
  | nearest clause => clause.Fits f

/-! ## Literals -/

namespace Encoding

variable {f : Field} {op : Operator} {v : Operand}

theorem fits_equalityLiteral {l : Literal} (h : equalityLiteral f op v = .ok l) :
    l.Fits f.type := by
  cases encodesValue_of_equalityLiteral h with
  | text hf hs => exact hf ▸ .text .exact _
  | tag hf hs => exact hf ▸ .tag .exact _
  | number hf hx =>
      have hrange := NumericRange.isEncoded_exact (isNaN_of_numericOperand hx)
      rcases hf with hf | hf
      · exact hf ▸ .numeric hrange
      · exact hf ▸ .date hrange
  | truth hf hb => exact hf ▸ .boolean _

theorem fits_patternLiteral {mode : TextMode} {l : Literal}
    (h : patternLiteral f op v mode = .ok l) : l.Fits f.type := by
  cases encodesPattern_of_patternLiteral h with
  | text hf hs => exact hf ▸ .text mode _
  | tag hf hmode hs => exact hf ▸ .tag _ _

/-- The checks of a circle leave a positive radius and a point between the limits. -/
theorem isOnGlobe_geoCircle {center : GeoPoint} {radius : Double} {unit : GeoUnit} {c : GeoCircle}
    (h : geoCircle f center radius unit = .ok c) : c.IsOnGlobe := by
  obtain ⟨rfl, ⟨hfinite, hradius⟩, ⟨hlon, hwide⟩, ⟨hlat, hhigh⟩⟩ := geoCircle_eq_ok h
  have hlongitude : maxLongitude.isNaN = false := by decide +kernel
  have hlatitude : maxLatitude.isNaN = false := by decide +kernel
  have hzero : (Double.zero false).isNaN = false := by decide
  have hpositive := Double.lt_of_not_le (Double.isNaN_of_isFinite hfinite) hzero hradius
  obtain ⟨hwest, heast⟩ :=
    Double.between_of_abs (Double.isNaN_of_isFinite hlon) hlongitude hwide
  obtain ⟨hsouth, hnorth⟩ :=
    Double.between_of_abs (Double.isNaN_of_isFinite hlat) hlatitude hhigh
  exact ⟨hfinite, hpositive, hwest, heast, hsouth, hnorth⟩

/-- The limit of the longitude is half a turn. -/
example : maxLongitude = .ofInt 180 ∧ maxLongitude.neg = .ofInt (-180) := by decide +kernel

theorem fits_knnClause {k : Nat} {threshold : Option Double} {c : KnnClause}
    (h : knnClause f op v k threshold = .ok c) : c.Fits f := by
  obtain ⟨params, vector, hparams, _, rfl, hlength, hk, hfinite, hthreshold⟩ := knnClause_eq_ok h
  refine ⟨rfl, ⟨params, hparams, hlength⟩, hfinite, Nat.pos_of_ne_zero hk, ?_⟩
  intro bound hbound
  have hbounds := hthreshold bound hbound
  simp only [isThreshold, Bool.and_eq_true, Bool.not_eq_true'] at hbounds
  have hzero : (Double.zero false).isNaN = false := by decide
  have hle := Double.le_of_not_lt (Double.isNaN_of_isFinite hbounds.1) hzero hbounds.2
  exact ⟨hbounds.1, hle⟩

end Encoding

/-! ## Criteria -/

section

variable {f : Field} {c : Condition}

theorem Operator.mem_types {op : Operator} {type : FieldType} (h : op.supports type = true) :
    type ∈ op.types := List.contains_iff_mem.mp h

/-- A literal fits, wherever it comes from: its operator is defined for the type of the field. -/
theorem Literal.ComesFrom.fits {l : Literal} (hsupported : c.operator.supports f.type = true)
    (h : l.ComesFrom f c) : l.Fits f.type := by
  have htype := Operator.mem_types hsupported
  cases h with
  | equality hv hkept h => exact fits_equalityLiteral h
  | pattern hc hv h => exact fits_patternLiteral h
  | range hop hr =>
      rw [hop] at htype
      simp only [List.mem_cons, List.not_mem_nil, or_false] at htype
      rcases htype with htype | htype
      · exact htype ▸ .numeric hr
      · exact htype ▸ .date hr
  | truth flag hop =>
      have hboolean : f.type = .boolean := by
        rw [hop] at htype
        cases flag <;> exact List.mem_singleton.mp htype
      exact hboolean ▸ .boolean flag
  | missing hop => exact .missing f.type
  | circle hop h =>
      rw [hop] at htype
      have hgeo : f.type = .geo := List.mem_singleton.mp htype
      exact hgeo ▸ .geo (isOnGlobe_geoCircle h)

theorem Criterion.ComesFrom.fits {criterion : Criterion}
    (hsupported : c.operator.supports f.type = true) (h : criterion.ComesFrom f c) :
    criterion.Fits f := by
  cases h with
  | unconstrained => trivial
  | term hl => exact hl.fits hsupported
  | anyOf hne hls => exact ⟨hne, fun l hl => (hls l hl).fits hsupported⟩
  | allOf hne hls => exact ⟨hne, fun l hl => (hls l hl).fits hsupported⟩
  | noneOf hne hls => exact ⟨hne, fun l hl => (hls l hl).fits hsupported⟩
  | nearest _ h => exact fits_knnClause h

end

namespace Predicate

open IndexQuery.Tree

/-- A predicate on a field that a condition leads to, or a textual filter. -/
inductive IsReturned (f : Field) (p : Predicate) : Prop
  | condition (c : Condition) (h : of f c = .ok p)
  | filter (raw : String) (filter : Filter) (hraw : Filter.ofText raw = .ok filter)
      (h : filter.predicate f = .ok p)

/-- Textual filters lead to conditions. -/
theorem IsReturned.exists_condition {f : Field} {p : Predicate} (hp : IsReturned f p) :
    ∃ c, of f c = .ok p := by
  cases hp with
  | condition c h => exact ⟨c, h⟩
  | filter raw filter hraw h =>
      obtain ⟨c, _, h⟩ := bind_eq_ok h
      exact ⟨c, h⟩

theorem fits_of_isReturned {f : Field} {p : Predicate} (hp : IsReturned f p) :
    p.field = f ∧ p.criterion.Fits f := by
  obtain ⟨c, h⟩ := hp.exists_condition
  obtain ⟨hfield, hsupported, hcriterion⟩ := of_eq_ok h
  exact ⟨hfield, (comesFrom_criterionOf hcriterion).fits hsupported⟩

/-! ## Alternatives in compiled lists -/

/-- Alternatives without a member, negated or not. -/
def IsEmptyAlternatives (t : Tree) : Prop := ∃ key, t = .union key [] ∨ t = .negatedUnion key []

theorem isLeaf_of_isEmptyAlternatives {t : Tree} (ht : IsEmptyAlternatives t) : IsLeaf t := by
  obtain ⟨key, rfl | rfl⟩ := ht
  · exact .union key []
  · exact .negatedUnion key []

/-- The alternatives of a criterion that fits have members. -/
theorem not_isEmptyAlternatives_of_mem_leaves {f : Field} {p : Predicate} (hp : p.criterion.Fits f)
    {t : Tree} (ht : t ∈ p.leaves) : ¬ IsEmptyAlternatives t := by
  rintro ⟨key, hkey⟩
  unfold leaves at ht
  cases hc : p.criterion with
  | anyOf ls =>
      rw [hc] at ht hp
      rw [List.mem_singleton.mp ht] at hkey
      rcases hkey with hkey | hkey
      · exact hp.1 (Tree.union.inj hkey).2
      · cases hkey
  | noneOf ls =>
      rw [hc] at ht hp
      rw [List.mem_singleton.mp ht] at hkey
      rcases hkey with hkey | hkey
      · cases hkey
      · exact hp.1 (Tree.negatedUnion.inj hkey).2
  | term l =>
      rw [hc] at ht
      rw [List.mem_singleton.mp ht] at hkey
      rcases hkey with hkey | hkey <;> cases hkey
  | allOf ls =>
      rw [hc] at ht
      obtain ⟨l, _, rfl⟩ := List.mem_map.mp ht
      rcases hkey with hkey | hkey <;> cases hkey
  | unconstrained => simp [hc] at ht
  | nearest clause => simp [hc] at ht

/-- Nowhere in the tree of a list of predicates that were returned are there alternatives without a
member. -/
theorem not_isEmptyAlternatives_of_occurs {ps : List Predicate}
    (hps : ∀ p ∈ ps, ∃ f, IsReturned f p) {t : Tree}
    (ht : t = compile ps ∨ Below t (compile ps)) : ¬ IsEmptyAlternatives t := by
  intro hempty
  have hleaf := isLeaf_of_isEmptyAlternatives hempty
  have hmem : t ∈ (compile ps).leaves := by
    rcases ht with rfl | hbelow
    · rw [hleaf.leaves_eq]
      exact List.mem_singleton_self _
    · exact (built_compile ps).isNormal.mem_leaves_of_below hbelow hleaf
  rw [leaves_compile] at hmem
  obtain ⟨p, hp, hmem⟩ := List.mem_flatMap.mp hmem
  obtain ⟨f, hreturned⟩ := hps p hp
  exact not_isEmptyAlternatives_of_mem_leaves (fits_of_isReturned hreturned).2 hmem hempty

/-! ## Type safety -/

/-- Every predicate that a condition or a textual filter leads to asks about its field with a
criterion that fits the field, and the tree of a list of such predicates has no alternatives without
a member. -/
theorem returned_fits_field {f : Field} {p : Predicate} (hp : IsReturned f p)
    {ps : List Predicate} (hps : ∀ q ∈ ps, ∃ g, IsReturned g q) :
    (p.field = f ∧ p.criterion.Fits f) ∧
      ∀ t, t = compile ps ∨ Below t (compile ps) → ¬ IsEmptyAlternatives t :=
  ⟨fits_of_isReturned hp, fun _ ht => not_isEmptyAlternatives_of_occurs hps ht⟩

/-- A list of tags from a textual filter, next to a range and a search for neighbours. -/
theorem returned_fits_field_filter :
    let shelf : Field := ⟨"shelf", "shelf", .tag, false, by decide, by decide, by decide⟩
    let age : Field := ⟨"age", "age", .numeric, false, by decide, by decide, by decide⟩
    let place : Field := ⟨"place", "place", .vector { dimension := 2 }, false,
      by decide, by decide, by decide⟩
    let listed : Predicate := ⟨shelf, .notIn, .noneOf [.tag .exact "a", .tag .exact "b c"]⟩
    let adult : Predicate := ⟨age, .between, .term (.numeric (.between (.ofInt 18) (.ofInt 65)))⟩
    let near : Predicate :=
      ⟨place, .vectorSimilarity, .nearest ⟨"place", 3, [⟨0⟩, ⟨1⟩], .float32, .l2, none⟩⟩
    Filter.ofText "shelf:nin:a| b c ," = .ok ⟨"shelf", .notIn, ["a", "b c"]⟩ ∧
      IsReturned shelf listed ∧ (∀ q ∈ [near, listed, adult], ∃ g, IsReturned g q) ∧
      (listed.field = shelf ∧ listed.criterion.Fits shelf) ∧
      ¬ IsEmptyAlternatives (compile [near, listed, adult]) := by
  intro shelf age place listed adult near
  have hraw : Filter.ofText "shelf:nin:a| b c ," = .ok ⟨"shelf", .notIn, ["a", "b c"]⟩ := by
    rfl
  have hlisted : IsReturned shelf listed := .filter _ _ hraw rfl
  have hadult : IsReturned age adult := by
    refine .condition (.between (.int 18) (.int 65)) ?_
    decide +kernel
  have hnear : IsReturned place near :=
    .condition (.nearest (.vector [⟨0⟩, ⟨1⟩]) 3 none) rfl
  have hall : ∀ q ∈ [near, listed, adult], ∃ g, IsReturned g q := by
    intro q hq
    simp only [List.mem_cons, List.not_mem_nil, or_false] at hq
    rcases hq with rfl | rfl | rfl
    · exact ⟨place, hnear⟩
    · exact ⟨shelf, hlisted⟩
    · exact ⟨age, hadult⟩
  obtain ⟨hfits, halternatives⟩ := returned_fits_field hlisted hall
  exact ⟨hraw, hlisted, hall, hfits, halternatives _ (.inl rfl)⟩

end Predicate

end IndexQuery
