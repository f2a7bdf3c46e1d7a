import IndexQuery.Proofs.Compilation.Meaning
import IndexQuery.Proofs.Encoding.Sources
set_option autoImplicit false

/-! # Conditions on equality are a Boolean algebra

Five kinds of conditions compare a field with values one by one: equal, not equal, any of, none of
and all of. All of them encode their values in the same way, whatever the operator
(`equalityLiteral_congr`), so a list applies to a field exactly when each of its members does. Each
then says of a document what its words say, about whether the single values are met
(`equality_family_boolean`). This holds of every document, also of one without a value for the
field, with a value of another kind, or with several values. -/

namespace IndexQuery

namespace Condition

open Encoding Matching Predicate

/-! ## Conditions and documents -/

/-- The condition can be asked of the field. -/
def AppliesTo (f : Field) (c : Condition) : Prop := ∃ p, of f c = .ok p

/-- The condition can be asked of the field, and the document meets it. -/
def Accepts (f : Field) (c : Condition) (d : Datum) : Prop :=
  ∃ p, of f c = .ok p ∧ (compile [p]).accepts d = true

variable {f : Field} {c : Condition} {d : Datum}

theorem appliesTo_iff (hc : c.operator.supports f.type = true) :
    c.AppliesTo f ↔ ∃ criterion, criterionOf f c = .ok criterion := by
  simp only [AppliesTo, of_eq_ok_iff, hc, true_and]
  exact ⟨fun ⟨_, criterion, h, _⟩ => ⟨criterion, h⟩, fun ⟨criterion, h⟩ => ⟨_, criterion, h, rfl⟩⟩

theorem accepts_iff (hc : c.operator.supports f.type = true) :
    c.Accepts f d ↔ ∃ criterion, criterionOf f c = .ok criterion ∧
      criterion.accepts f.key d = true := by
  simp only [Accepts, of_eq_ok_iff, hc, true_and, accepts_compile_one]
  constructor
  · rintro ⟨_, ⟨criterion, h, rfl⟩, haccepts⟩
    exact ⟨criterion, h, haccepts⟩
  · rintro ⟨criterion, h, haccepts⟩
    exact ⟨_, ⟨criterion, h, rfl⟩, haccepts⟩

/-- A condition whose criterion is made from an encoding applies where the encoding succeeds. -/
theorem appliesTo_iff_of_map {α : Type} {encoded : Except QueryError α} {make : α → Criterion}
    (hc : c.operator.supports f.type = true)
    (h : criterionOf f c = encoded.map make) :
    c.AppliesTo f ↔ ∃ a, encoded = .ok a := by
  rw [appliesTo_iff hc, h]
  constructor
  · rintro ⟨criterion, hcriterion⟩
    obtain ⟨a, ha, _⟩ := map_eq_ok hcriterion
    exact ⟨a, ha⟩
  · rintro ⟨a, rfl⟩
    exact ⟨make a, rfl⟩

/-- Such a condition is judged by the criterion that is made from the result. -/
theorem accepts_iff_of_map {α : Type} {encoded : Except QueryError α} {make : α → Criterion}
    {a : α} (hc : c.operator.supports f.type = true)
    (h : criterionOf f c = encoded.map make) (ha : encoded = .ok a) :
    c.Accepts f d ↔ (make a).accepts f.key d = true := by
  rw [accepts_iff hc, h, ha]
  constructor
  · rintro ⟨criterion, hcriterion, haccepts⟩
    cases Except.ok.inj hcriterion
    exact haccepts
  · intro haccepts
    exact ⟨make a, rfl, haccepts⟩

/-! ## Encodings -/

variable {v : Operand} {vs : List Operand}

/-- The encoding of a value for equality does not depend on what is asked about it. -/
theorem equalityLiteral_congr (hf : Operator.equal.supports f.type = true) (op op' : Operator)
    (v : Operand) : equalityLiteral f op v = equalityLiteral f op' v := by
  unfold equalityLiteral
  cases htype : f.type with
  | geo =>
      rw [htype] at hf
      cases hf
  | vector =>
      rw [htype] at hf
      cases hf
  | _ => rfl

/-- The criterion of a condition on one value. -/
theorem criterionOf_single (hf : Operator.equal.supports f.type = true) (hv : v.isEmpty = false)
    (op : Operator) (make : Literal → Criterion) :
    unlessEmpty f op v ((equalityLiteral f op v).map make)
      = (equalityLiteral f .equal v).map make := by
  rw [unlessEmpty_of_isEmpty_eq_false hv, equalityLiteral_congr hf op .equal]

/-- The criterion of a condition on the members of a list. -/
theorem criterionOf_list (hf : Operator.equal.supports f.type = true) (hvs : vs ≠ [])
    (op : Operator) (make : List Literal → Criterion) :
    unlessEmpty f op (.list vs) ((memberLiterals f op (.list vs)).map make)
      = (vs.mapM (equalityLiteral f .equal)).map make := by
  have hlist : (Operand.list vs).isEmpty = false := List.isEmpty_eq_false_iff.mpr hvs
  rw [unlessEmpty_of_isEmpty_eq_false hlist, memberLiterals,
    funext (equalityLiteral_congr hf op .equal)]
  rfl

/-! ## Which conditions apply -/

theorem appliesTo_equal (hf : Operator.equal.supports f.type = true) (hv : v.isEmpty = false) :
    (equal v).AppliesTo f ↔ ∃ l, equalityLiteral f .equal v = .ok l :=
  appliesTo_iff_of_map hf (criterionOf_single hf hv .equal .term)

theorem appliesTo_notEqual (hf : Operator.equal.supports f.type = true) (hv : v.isEmpty = false) :
    (notEqual v).AppliesTo f ↔ (equal v).AppliesTo f := by
  rw [appliesTo_equal hf hv]
  exact appliesTo_iff_of_map hf (criterionOf_single hf hv .notEqual fun l => .noneOf [l])

/-- A condition on the members of a list applies if every member can be asked for. -/
theorem appliesTo_list {make : List Literal → Criterion}
    (hf : Operator.equal.supports f.type = true) (hvs : ∀ v ∈ vs, v.isEmpty = false)
    (hc : c.operator.supports f.type = true)
    (h : criterionOf f c = (vs.mapM (equalityLiteral f .equal)).map make) :
    c.AppliesTo f ↔ ∀ v ∈ vs, (equal v).AppliesTo f := by
  rw [appliesTo_iff_of_map hc h, mapM_succeeds_iff]
  exact forall₂_congr fun v hv => (appliesTo_equal hf (hvs v hv)).symm

/-! ## Which documents meet them -/

theorem accepts_equal {l : Literal} (hf : Operator.equal.supports f.type = true)
    (hv : v.isEmpty = false) (hl : equalityLiteral f .equal v = .ok l) :
    (equal v).Accepts f d ↔ termMatches f.key l d = true :=
  accepts_iff_of_map (c := equal v) hf (criterionOf_single hf hv .equal .term) hl

/-- To differ from a value is not to equal it. -/
theorem accepts_notEqual (hf : Operator.equal.supports f.type = true)
    (hv : v.isEmpty = false) (happlies : (equal v).AppliesTo f) :
    (notEqual v).Accepts f d ↔ ¬ (equal v).Accepts f d := by
  obtain ⟨l, hl⟩ := (appliesTo_equal hf hv).mp happlies
  have hcriterion := criterionOf_single hf hv .notEqual fun l => .noneOf [l]
  rw [accepts_iff_of_map (c := notEqual v) hf hcriterion hl, accepts_equal hf hv hl]
  simp [Criterion.accepts]

/-- The members of a list that can be asked for, with their literals. -/
theorem exists_literals (hf : Operator.equal.supports f.type = true)
    (hvs : ∀ v ∈ vs, v.isEmpty = false) (happlies : ∀ v ∈ vs, (equal v).AppliesTo f) :
    ∃ ls, vs.mapM (equalityLiteral f .equal) = .ok ls ∧ ∀ d,
      List.Forall₂ (fun v l => (equal v).Accepts f d ↔ termMatches f.key l d = true) vs ls := by
  obtain ⟨ls, hls⟩ := mapM_succeeds_iff.mpr fun v hv =>
    (appliesTo_equal hf (hvs v hv)).mp (happlies v hv)
  refine ⟨ls, hls, fun d => ?_⟩
  have hsteps := (List.forall₂_and_left vs ls).mpr ⟨hvs, forall₂_of_mapM hls⟩
  exact hsteps.imp fun v l ⟨hv, hl⟩ => accepts_equal hf hv hl

theorem any_iff_of_forall₂ {α β : Type} {P : α → Prop} {q : β → Bool} {xs : List α} {ys : List β}
    (h : List.Forall₂ (fun x y => P x ↔ q y = true) xs ys) :
    ys.any q = true ↔ ∃ x ∈ xs, P x := by
  induction h with
  | nil => simp
  | cons hone _ ih =>
      rw [List.any_cons, Bool.or_eq_true, ih, ← hone, List.exists_mem_cons_iff]

theorem all_iff_of_forall₂ {α β : Type} {P : α → Prop} {q : β → Bool} {xs : List α} {ys : List β}
    (h : List.Forall₂ (fun x y => P x ↔ q y = true) xs ys) :
    ys.all q = true ↔ ∀ x ∈ xs, P x := by
  induction h with
  | nil => simp
  | cons hone _ ih =>
      rw [List.all_cons, Bool.and_eq_true, ih, ← hone, List.forall_mem_cons]

/-- The conditions on a list of values that fit the field, in terms of the single values. -/
theorem accepts_list (hin : Operator.isIn.supports f.type = true)
    (hf : Operator.equal.supports f.type = true) (hne : vs ≠ [])
    (hvs : ∀ v ∈ vs, v.isEmpty = false) (happlies : ∀ v ∈ vs, (equal v).AppliesTo f) :
    ((isIn (.list vs)).Accepts f d ↔ ∃ v ∈ vs, (equal v).Accepts f d) ∧
      ((notIn (.list vs)).Accepts f d ↔ ¬ ∃ v ∈ vs, (equal v).Accepts f d) ∧
      (f.type = .tag →
        ((containsAll (.list vs)).Accepts f d ↔ ∀ v ∈ vs, (equal v).Accepts f d)) := by
  obtain ⟨ls, hls, hmatches⟩ := exists_literals hf hvs happlies
  have hany := any_iff_of_forall₂ (hmatches d)
  have hall := all_iff_of_forall₂ (hmatches d)
  have hisIn := criterionOf_list hf hne .isIn .anyOf
  have hnotIn := criterionOf_list hf hne .notIn .noneOf
  have hcontainsAll := criterionOf_list hf hne .containsAll .allOf
  refine ⟨?_, ?_, fun htag => ?_⟩
  · rw [accepts_iff_of_map (c := isIn (.list vs)) hin hisIn hls, ← hany]
    rfl
  · rw [accepts_iff_of_map (c := notIn (.list vs)) hin hnotIn hls, ← hany]
    simp [Criterion.accepts]
  · have hsupported : Operator.containsAll.supports f.type = true := by rw [htag]; rfl
    rw [accepts_iff_of_map (c := containsAll (.list vs)) hsupported hcontainsAll hls, ← hall]
    rfl

theorem appliesTo_equal_bool (hf : f.type = .boolean) (b : Bool) :
    (equal (.bool b)).AppliesTo f := by
  have hsupported : Operator.equal.supports f.type = true := by rw [hf]; rfl
  refine (appliesTo_equal hsupported rfl).mpr ⟨.boolean b, ?_⟩
  rw [equalityLiteral, hf]
  rfl

/-- A field that can be compared with several values can be compared with one. -/
theorem supports_equal_of_isIn {type : FieldType} (h : Operator.isIn.supports type = true) :
    Operator.equal.supports type = true := by
  cases type with
  | geo => cases h
  | vector => cases h
  | _ => rfl

/-! ## The algebra -/

/-- A list of values can be asked for, in any of the ways, exactly when each of them can. Any of
them is the disjunction of the single values, none of them is its negation and the conjunction of
the single exclusions, and all of them is the conjunction. -/
theorem equality_family_boolean :
    (∀ (f : Field) (vs : List Operand), Operator.isIn.supports f.type = true → vs ≠ [] →
      (∀ v ∈ vs, v.isEmpty = false) →
      (((isIn (.list vs)).AppliesTo f ↔ ∀ v ∈ vs, (equal v).AppliesTo f) ∧
        ((notIn (.list vs)).AppliesTo f ↔ ∀ v ∈ vs, (equal v).AppliesTo f) ∧
        (∀ v ∈ vs, (notEqual v).AppliesTo f ↔ (equal v).AppliesTo f) ∧
        (f.type = .tag →
          ((containsAll (.list vs)).AppliesTo f ↔ ∀ v ∈ vs, (equal v).AppliesTo f))) ∧
      ((∀ v ∈ vs, (equal v).AppliesTo f) → ∀ d : Datum,
        ((isIn (.list vs)).Accepts f d ↔ ∃ v ∈ vs, (equal v).Accepts f d) ∧
        ((notIn (.list vs)).Accepts f d ↔ ¬ (isIn (.list vs)).Accepts f d) ∧
        ((notIn (.list vs)).Accepts f d ↔ ∀ v ∈ vs, (notEqual v).Accepts f d) ∧
        (∀ v ∈ vs, (notEqual v).Accepts f d ↔ ¬ (equal v).Accepts f d) ∧
        (f.type = .tag →
          ((containsAll (.list vs)).Accepts f d ↔ ∀ v ∈ vs, (equal v).Accepts f d)))) ∧
    ∀ (f : Field) (b : Bool), f.type = .boolean →
      (equal (.bool b)).AppliesTo f ∧ (notEqual (.bool b)).AppliesTo f ∧
        ∀ d : Datum, (notEqual (.bool b)).Accepts f d ↔ ¬ (equal (.bool b)).Accepts f d := by
  refine ⟨fun f vs hin hne hvs => ⟨?_, fun happlies d => ?_⟩, fun f b hf => ?_⟩
  · have hf := supports_equal_of_isIn hin
    refine ⟨?_, ?_, fun v hv => appliesTo_notEqual hf (hvs v hv), fun htag => ?_⟩
    · exact appliesTo_list hf hvs hin (criterionOf_list hf hne .isIn .anyOf)
    · exact appliesTo_list hf hvs hin (criterionOf_list hf hne .notIn .noneOf)
    · have hsupported : Operator.containsAll.supports f.type = true := by rw [htag]; rfl
      exact appliesTo_list hf hvs hsupported (criterionOf_list hf hne .containsAll .allOf)
  · have hf := supports_equal_of_isIn hin
    have hnotEqual : ∀ v ∈ vs, (notEqual v).Accepts f d ↔ ¬ (equal v).Accepts f d := fun v hv =>
      accepts_notEqual hf (hvs v hv) (happlies v hv)
    obtain ⟨hany, hnone, hall⟩ := accepts_list (d := d) hin hf hne hvs happlies
    refine ⟨hany, ?_, ?_, hnotEqual, hall⟩
    · rw [hnone, hany]
    · rw [hnone, forall₂_congr hnotEqual]
      simp only [not_exists, not_and]
  · have hsupported : Operator.equal.supports f.type = true := by rw [hf]; rfl
    have happlies := appliesTo_equal_bool hf b
    exact ⟨happlies, (appliesTo_notEqual hsupported rfl).mpr happlies,
      fun d => accepts_notEqual hsupported rfl happlies⟩

/-- A document with two of the three tags that are asked for, and no truth value. -/
theorem equality_family_boolean_two_of_three :
    let shelf : Field := ⟨"shelf", "shelf", .tag, false, by decide, by decide, by decide⟩
    let lent : Field := ⟨"lent", "lent", .boolean, false, by decide, by decide, by decide⟩
    let vs : List Operand := [.text "c", .int 7, .text "A"]
    let d : Datum := .record [("shelf", .list [.int 7, .text "b, a"])]
    Operator.isIn.supports shelf.type = true ∧ vs ≠ [] ∧ (∀ v ∈ vs, v.isEmpty = false) ∧
      (∀ v ∈ vs, (equal v).AppliesTo shelf) ∧ lent.type = .boolean ∧
      (isIn (.list vs)).Accepts shelf d ∧ ¬ (notIn (.list vs)).Accepts shelf d ∧
      ¬ (containsAll (.list vs)).Accepts shelf d ∧ (notEqual (.bool true)).Accepts lent d := by
  intro shelf lent vs d
  have hvs : ∀ v ∈ vs, v.isEmpty = false := by
    intro v hv
    simp only [vs, List.mem_cons, List.not_mem_nil, or_false] at hv
    rcases hv with rfl | rfl | rfl <;> decide
  have happlies : ∀ v ∈ vs, (equal v).AppliesTo shelf := by
    intro v hv
    simp only [vs, List.mem_cons, List.not_mem_nil, or_false] at hv
    rcases hv with rfl | rfl | rfl <;> exact ⟨_, rfl⟩
  have hc : .text "c" ∈ vs := by simp [vs]
  have hseven : .int 7 ∈ vs := by simp [vs]
  obtain ⟨hany, hnone, _, hnot, hall⟩ :=
    (equality_family_boolean.1 shelf vs rfl (List.cons_ne_nil _ _) hvs).2 happlies d
  obtain ⟨_, _, hlent⟩ := equality_family_boolean.2 lent true rfl
  have hsevenAccepts : (equal (.int 7)).Accepts shelf d := ⟨_, rfl, by decide +kernel⟩
  have hcNot : ¬ (equal (.text "c")).Accepts shelf d :=
    (hnot _ hc).mp ⟨_, rfl, by decide +kernel⟩
  have hlentNot : ¬ (equal (.bool true)).Accepts lent d := by
    rintro ⟨p, hp, haccepts⟩
    cases Except.ok.inj hp
    exact absurd haccepts (by decide +kernel)
  have hisIn := hany.mpr ⟨_, hseven, hsevenAccepts⟩
  exact ⟨rfl, List.cons_ne_nil _ _, hvs, happlies, rfl, hisIn, fun h => hnone.mp h hisIn,
    fun h => hcNot ((hall rfl).mp h _ hc), hlent d |>.mpr hlentNot⟩

end Condition

end IndexQuery
