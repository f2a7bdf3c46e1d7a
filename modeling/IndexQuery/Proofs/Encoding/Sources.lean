import IndexQuery.Predicate
import Mathlib.Data.List.Forall2
set_option autoImplicit false

/-! # Where criteria come from

An encoding that succeeds can be read backwards. Every literal of the criterion of a condition has
one of six sources (`Literal.ComesFrom`): the encoding of an operand for equality, that of a
pattern, a range of numbers, a truth value, the absence of a value, or a circle. The only clause is
that of a search for neighbours, and lists of literals have members (`comesFrom_criterionOf`). What
holds of all criteria is proved from this, one source after the other, without opening the
constructors of predicates again. -/

namespace IndexQuery

/-! ## Results of steps that can fail -/

theorem map_eq_ok {ε α β : Type} {x : Except ε α} {g : α → β} {b : β} (h : x.map g = .ok b) :
    ∃ a, x = .ok a ∧ g a = b := by
  cases x with
  | error e => cases h
  | ok a => exact ⟨a, rfl, Except.ok.inj h⟩

theorem map_succeeds {ε α β : Type} {x : Except ε α} (g : α → β) (h : ∃ a, x = .ok a) :
    ∃ b, x.map g = .ok b := by
  obtain ⟨a, rfl⟩ := h
  exact ⟨g a, rfl⟩

theorem map_fails {ε α β : Type} {x : Except ε α} {e : ε} (g : α → β) (h : x = .error e) :
    x.map g = .error e := by
  rw [h]
  rfl

theorem mapError_eq_ok_iff {ε ε' α : Type} {x : Except ε α} {g : ε → ε'} {a : α} :
    x.mapError g = .ok a ↔ x = .ok a := by
  cases x <;> simp [Except.mapError]

theorem mapError_eq_error_iff {ε ε' α : Type} {x : Except ε α} {g : ε → ε'} {e : ε'} :
    x.mapError g = .error e ↔ ∃ cause, x = .error cause ∧ g cause = e := by
  cases x <;> simp [Except.mapError]

/-- Two steps succeed if the first does, and the second from there on. -/
theorem bind_eq_ok_iff {ε α β : Type} {x : Except ε α} {g : α → Except ε β} {b : β} :
    x.bind g = .ok b ↔ ∃ a, x = .ok a ∧ g a = .ok b := by
  cases x <;> simp [Except.bind]

theorem bind_eq_ok {ε α β : Type} {x : Except ε α} {g : α → Except ε β} {b : β}
    (h : x.bind g = .ok b) : ∃ a, x = .ok a ∧ g a = .ok b := bind_eq_ok_iff.mp h

/-- Two steps fail with the first of them, or else with the second. -/
theorem bind_eq_error_iff {ε α β : Type} {x : Except ε α} {g : α → Except ε β} {e : ε} :
    x.bind g = .error e ↔ x = .error e ∨ ∃ a, x = .ok a ∧ g a = .error e := by
  cases x <;> simp [Except.bind]

section

variable {ε α : Type} {x : Except ε α} {Passes : α → Prop} {Fails : ε → Prop}

/-- Where the conditions to pass and to fail leave no gap, they are also necessary. -/
theorem eq_ok_iff_of_cases (hpasses : ∀ a, Passes a → x = .ok a)
    (hfails : ∀ e, Fails e → x = .error e) (hcases : (∃ a, Passes a) ∨ ∃ e, Fails e) {a : α} :
    x = .ok a ↔ Passes a := by
  refine ⟨fun hx => ?_, hpasses a⟩
  rcases hcases with ⟨b, hb⟩ | ⟨e, he⟩
  · rw [hpasses b hb] at hx
    cases hx
    exact hb
  · rw [hfails e he] at hx
    cases hx

theorem eq_error_iff_of_cases (hpasses : ∀ a, Passes a → x = .ok a)
    (hfails : ∀ e, Fails e → x = .error e) (hcases : (∃ a, Passes a) ∨ ∃ e, Fails e) {e : ε} :
    x = .error e ↔ Fails e := by
  refine ⟨fun hx => ?_, hfails e⟩
  rcases hcases with ⟨a, ha⟩ | ⟨e', he⟩
  · rw [hpasses a ha] at hx
    cases hx
  · rw [hfails e' he] at hx
    cases hx
    exact he

end

/-- The results of a list of steps belong to the steps one by one. -/
theorem forall₂_of_mapM {ε α β : Type} {g : α → Except ε β} {xs : List α} {ys : List β}
    (h : xs.mapM g = .ok ys) : List.Forall₂ (fun x y => g x = .ok y) xs ys := by
  induction xs generalizing ys with
  | nil =>
      rw [List.mapM_nil] at h
      cases Except.ok.inj h
      exact .nil
  | cons x xs ih =>
      rw [List.mapM_cons] at h
      obtain ⟨y, hy, hrest⟩ := bind_eq_ok h
      obtain ⟨rest, hys, hcons⟩ := bind_eq_ok hrest
      cases Except.ok.inj hcons
      exact .cons hy (ih hys)

theorem mapM_of_forall₂ {ε α β : Type} {g : α → Except ε β} {xs : List α} {ys : List β}
    (h : List.Forall₂ (fun x y => g x = .ok y) xs ys) : xs.mapM g = .ok ys := by
  induction h with
  | nil => rfl
  | cons hone _ ih =>
      rw [List.mapM_cons, hone, ih]
      rfl

/-- Every result of a list of steps is the result of one of them. -/
theorem exists_of_mem_mapM {ε α β : Type} {g : α → Except ε β} {xs : List α} {ys : List β}
    (h : xs.mapM g = .ok ys) {y : β} (hy : y ∈ ys) : ∃ x ∈ xs, g x = .ok y := by
  have hsteps := forall₂_of_mapM h
  clear h
  induction hsteps with
  | nil => cases hy
  | cons hone hrest ih =>
      rcases List.mem_cons.mp hy with rfl | hy
      · exact ⟨_, List.mem_cons_self, hone⟩
      · obtain ⟨x, hx, hone⟩ := ih hy
        exact ⟨x, List.mem_cons_of_mem _ hx, hone⟩

/-- Every step of a list of steps has its result among the results. -/
theorem exists_result_of_mem {ε α β : Type} {g : α → Except ε β} {xs : List α} {ys : List β}
    (h : xs.mapM g = .ok ys) {x : α} (hx : x ∈ xs) : ∃ y ∈ ys, g x = .ok y := by
  have hsteps := forall₂_of_mapM h
  clear h
  induction hsteps with
  | nil => cases hx
  | cons hone hrest ih =>
      rcases List.mem_cons.mp hx with rfl | hx
      · exact ⟨_, List.mem_cons_self, hone⟩
      · obtain ⟨y, hy, hone⟩ := ih hx
        exact ⟨y, List.mem_cons_of_mem _ hy, hone⟩

/-- A list of steps has results exactly when each of its steps has one. -/
theorem mapM_succeeds_iff {ε α β : Type} {g : α → Except ε β} {xs : List α} :
    (∃ ys, xs.mapM g = .ok ys) ↔ ∀ x ∈ xs, ∃ y, g x = .ok y := by
  induction xs with
  | nil => exact ⟨fun _ _ hx => (List.not_mem_nil hx).elim, fun _ => ⟨[], rfl⟩⟩
  | cons x xs ih =>
      rw [List.forall_mem_cons, ← ih, List.mapM_cons]
      constructor
      · rintro ⟨zs, h⟩
        obtain ⟨y, hy, hrest⟩ := bind_eq_ok h
        obtain ⟨ys, hys, _⟩ := bind_eq_ok hrest
        exact ⟨⟨y, hy⟩, ys, hys⟩
      · rintro ⟨⟨y, hy⟩, ys, hys⟩
        refine ⟨y :: ys, ?_⟩
        rw [hy, hys]
        rfl

theorem mapM_eq_error_of_first {ε α β : Type} {g : α → Except ε β} {before after : List α} {x : α}
    {e : ε} (hbefore : ∀ y ∈ before, ∃ z, g y = .ok z) (hx : g x = .error e) :
    (before ++ x :: after).mapM g = .error e := by
  induction before with
  | nil =>
      rw [List.nil_append, List.mapM_cons, hx]
      rfl
  | cons y before ih =>
      obtain ⟨z, hz⟩ := hbefore y List.mem_cons_self
      have hrest := ih fun y' hy' => hbefore y' (List.mem_cons_of_mem y hy')
      rw [List.cons_append, List.mapM_cons, hz]
      show (List.mapM g (before ++ x :: after)).bind _ = _
      rw [hrest]
      rfl

/-- A list of steps fails with the first of its steps that fails. -/
theorem mapM_eq_error_iff {ε α β : Type} {g : α → Except ε β} {xs : List α} {e : ε} :
    xs.mapM g = .error e ↔ ∃ before x after, xs = before ++ x :: after ∧
      (∀ y ∈ before, ∃ z, g y = .ok z) ∧ g x = .error e := by
  constructor
  · intro h
    induction xs with
    | nil => cases h
    | cons x xs ih =>
        rw [List.mapM_cons] at h
        cases hx : g x with
        | error e' =>
            rw [hx] at h
            cases Except.error.inj h
            exact ⟨[], x, xs, rfl, by simp, hx⟩
        | ok z =>
            have hrest : xs.mapM g = .error e := by
              rw [hx] at h
              cases hxs : xs.mapM g with
              | error e' => simpa [hxs, bind, Except.bind] using h
              | ok zs => simp [hxs, bind, Except.bind, pure, Except.pure] at h
            obtain ⟨before, y, after, rfl, hbefore, hy⟩ := ih hrest
            refine ⟨x :: before, y, after, rfl, fun y' hy' => ?_, hy⟩
            rcases List.mem_cons.mp hy' with rfl | hy'
            · exact ⟨z, hx⟩
            · exact hbefore y' hy'
  · rintro ⟨before, x, after, rfl, hbefore, hx⟩
    exact mapM_eq_error_of_first hbefore hx

/-! ## Ranges of numbers -/

/-- A bound that is a number, if it is there. -/
def Bound.IsNumber : Bound → Prop
  | unbounded => True
  | inclusive x => x.isNaN = false
  | exclusive x => x.isNaN = false

/-- The ends are numbers, and at least one is there. -/
structure NumericRange.IsEncoded (r : NumericRange) : Prop where
  lower : r.lower.IsNumber
  upper : r.upper.IsNumber
  bounded : r.lower = .unbounded → r.upper ≠ .unbounded

namespace NumericRange

variable {x y : Double}

theorem isEncoded_between (hx : x.isNaN = false) (hy : y.isNaN = false) :
    (between x y).IsEncoded :=
  ⟨hx, hy, fun h => by cases h⟩

/-- The range of a single number is one from the number to itself. -/
theorem isEncoded_exact (hx : x.isNaN = false) : (exact x).IsEncoded := isEncoded_between hx hx

theorem isEncoded_greaterThan (hx : x.isNaN = false) : (greaterThan x).IsEncoded :=
  ⟨hx, trivial, fun h => by cases h⟩

theorem isEncoded_atLeast (hx : x.isNaN = false) : (atLeast x).IsEncoded :=
  ⟨hx, trivial, fun h => by cases h⟩

theorem isEncoded_lessThan (hx : x.isNaN = false) : (lessThan x).IsEncoded :=
  ⟨trivial, hx, fun _ h => by cases h⟩

theorem isEncoded_atMost (hx : x.isNaN = false) : (atMost x).IsEncoded :=
  ⟨trivial, hx, fun _ h => by cases h⟩

end NumericRange

/-! ## Single encodings -/

namespace Encoding

variable {f : Field} {op : Operator} {v : Operand}

theorem isNaN_of_numericOperand {x : Double} (h : numericOperand f v = .ok x) :
    x.isNaN = false := by
  unfold numericOperand at h
  split at h
  · cases h
  · split at h
    · cases h
    · next hnan =>
        cases Except.ok.inj h
        simpa using hnan

/-- The literal that a field equals a value, by the type of the field. -/
inductive EncodesValue (f : Field) (v : Operand) : Literal → Prop
  | text {s : String} (hf : f.type = .text) (hs : stringOperand f v = .ok s) :
      EncodesValue f v (.text .exact s)
  | tag {s : String} (hf : f.type = .tag) (hs : stringOperand f v = .ok s) :
      EncodesValue f v (.tag .exact s)
  | number {x : Double} (hf : f.type = .numeric ∨ f.type = .date)
      (hx : numericOperand f v = .ok x) : EncodesValue f v (.numeric (.exact x))
  | truth {b : Bool} (hf : f.type = .boolean) (hb : booleanOperand f v = .ok b) :
      EncodesValue f v (.boolean b)

theorem encodesValue_of_equalityLiteral {l : Literal} (h : equalityLiteral f op v = .ok l) :
    EncodesValue f v l := by
  unfold equalityLiteral at h
  split at h
  · next hf =>
      obtain ⟨s, hs, rfl⟩ := map_eq_ok h
      exact .text hf hs
  · next hf =>
      obtain ⟨s, hs, rfl⟩ := map_eq_ok h
      exact .tag hf hs
  · next hf =>
      obtain ⟨x, hx, rfl⟩ := map_eq_ok h
      exact .number (.inl hf) hx
  · next hf =>
      obtain ⟨x, hx, rfl⟩ := map_eq_ok h
      exact .number (.inr hf) hx
  · next hf =>
      obtain ⟨b, hb, rfl⟩ := map_eq_ok h
      exact .truth hf hb
  · cases h
  · cases h

/-- The literal that a field meets a pattern, by the type of the field. -/
inductive EncodesPattern (f : Field) (v : Operand) (mode : TextMode) : Literal → Prop
  | text {s : String} (hf : f.type = .text) (hs : stringOperand f v = .ok s) :
      EncodesPattern f v mode (.text mode s)
  | tag {s : String} {tagMode : TagMode} (hf : f.type = .tag)
      (hmode : tagMode? mode = some tagMode) (hs : stringOperand f v = .ok s) :
      EncodesPattern f v mode (.tag tagMode s)

theorem encodesPattern_of_patternLiteral {mode : TextMode} {l : Literal}
    (h : patternLiteral f op v mode = .ok l) : EncodesPattern f v mode l := by
  unfold patternLiteral at h
  split at h
  · next hf =>
      obtain ⟨s, hs, rfl⟩ := map_eq_ok h
      exact .text hf hs
  · next hf =>
      split at h
      · cases h
      · next hmode =>
          obtain ⟨s, hs, rfl⟩ := map_eq_ok h
          exact .tag hf hmode hs
  · cases h

theorem isNaN_of_boundOf {x : Double} (h : Predicate.boundOf f op v = .ok x) :
    x.isNaN = false := by
  unfold Predicate.boundOf at h
  split at h
  · cases h
  · exact isNaN_of_numericOperand h

/-- A circle that passes the checks, with what the checks say. -/
theorem geoCircle_eq_ok {center : GeoPoint} {radius : Double} {unit : GeoUnit} {c : GeoCircle}
    (h : geoCircle f center radius unit = .ok c) :
    c = ⟨center, radius, unit⟩ ∧
      (radius.isFinite = true ∧ radius.le (Double.zero false) = false) ∧
      (center.lon.isFinite = true ∧ maxLongitude.lt center.lon.abs = false) ∧
      (center.lat.isFinite = true ∧ maxLatitude.lt center.lat.abs = false) := by
  unfold geoCircle at h
  split at h
  · cases h
  · next hradius =>
      split at h
      · cases h
      · next hlon =>
          split at h
          · cases h
          · next hlat =>
              have hchecks := And.intro hradius (And.intro hlon hlat)
              simp only [Bool.or_eq_true, Bool.not_eq_true', not_or, Bool.not_eq_false,
                Bool.not_eq_true] at hchecks
              exact ⟨(Except.ok.inj h).symm, hchecks⟩

/-- A search that passes the checks, with what the checks say. -/
theorem knnClause_eq_ok {k : Nat} {threshold : Option Double} {c : KnnClause}
    (h : knnClause f op v k threshold = .ok c) :
    ∃ params vector, f.vectorParams = some params ∧ v = .vector vector ∧
      c = ⟨f.key, k, vector, params.elementType, params.metric, threshold⟩ ∧
      vector.length = params.dimension ∧ k ≠ 0 ∧ (∀ x ∈ vector, x.isFinite = true) ∧
      ∀ bound, threshold = some bound → isThreshold bound = true := by
  unfold knnClause at h
  split at h
  · cases h
  · next params hparams =>
      split at h
      · next vector =>
          split at h
          · cases h
          · next hdimension =>
              split at h
              · cases h
              · next hk =>
                  split at h
                  · cases h
                  · next hfinite =>
                      split at h
                      · cases h
                      · next hthreshold =>
                          refine ⟨params, vector, hparams, rfl, (Except.ok.inj h).symm, ?_, hk,
                            ?_, ?_⟩
                          · simpa using hdimension
                          · simpa using hfinite
                          · intro bound hbound
                            have hkept := Option.filter_eq_none_iff.mp hthreshold bound hbound
                            simpa using hkept
      · cases h

end Encoding

/-! ## Sources of literals -/

namespace Condition

/-- The operands that the condition compares a field with, one by one. -/
def comparands : Condition → List Operand
  | equal v => [v]
  | notEqual v => [v]
  | isIn vs => vs.members
  | notIn vs => vs.members
  | containsAll vs => vs.members
  | _ => []

/-- The members of the list that the condition asks for, if it asks for the members of a list. -/
def listed : Condition → List Operand
  | isIn (.list vs) => vs
  | notIn (.list vs) => vs
  | containsAll (.list vs) => vs
  | _ => []

/-- The operand of the condition as a pattern, with its mode. -/
def pattern? : Condition → Option (Operand × TextMode)
  | startsWith v => some (v, .starts)
  | endsWith v => some (v, .ends)
  | containing v => some (v, .contains)
  | like v => some (v, .fuzzy)
  | _ => none

end Condition

open Encoding in
/-- Where a literal in the criterion of a condition comes from. Only the members of lists may be
empty. -/
inductive Literal.ComesFrom (f : Field) (c : Condition) : Literal → Prop
  | equality {v : Operand} {l : Literal} (hv : v ∈ c.comparands)
      (hkept : v.isEmpty = false ∨ v ∈ c.listed) (h : equalityLiteral f c.operator v = .ok l) :
      ComesFrom f c l
  | pattern {v : Operand} {mode : TextMode} {l : Literal} (hc : c.pattern? = some (v, mode))
      (hv : v.isEmpty = false) (h : patternLiteral f c.operator v mode = .ok l) : ComesFrom f c l
  | range {r : NumericRange} (hop : c.operator.types = [.numeric, .date]) (hr : r.IsEncoded) :
      ComesFrom f c (.numeric r)
  | truth (flag : Bool) (hop : c.operator = if flag then .isTrue else .isFalse) :
      ComesFrom f c (.boolean flag)
  | missing (hop : c.operator = .isMissing) : ComesFrom f c .missing
  | circle {center : GeoPoint} {radius : Double} {unit : GeoUnit} {circle : GeoCircle}
      (hop : c.operator = .near) (h : geoCircle f center radius unit = .ok circle) :
      ComesFrom f c (.geo circle)

open Encoding in
/-- Where the criterion of a condition comes from: literals with a source, in lists that have
members, or a search for neighbours. -/
inductive Criterion.ComesFrom (f : Field) (c : Condition) : Criterion → Prop
  | unconstrained : ComesFrom f c .unconstrained
  | term {l : Literal} (hl : l.ComesFrom f c) : ComesFrom f c (.term l)
  | anyOf {ls : List Literal} (hne : ls ≠ []) (hls : ∀ l ∈ ls, l.ComesFrom f c) :
      ComesFrom f c (.anyOf ls)
  | allOf {ls : List Literal} (hne : ls ≠ []) (hls : ∀ l ∈ ls, l.ComesFrom f c) :
      ComesFrom f c (.allOf ls)
  | noneOf {ls : List Literal} (hne : ls ≠ []) (hls : ∀ l ∈ ls, l.ComesFrom f c) :
      ComesFrom f c (.noneOf ls)
  | nearest {v : Operand} {k : Nat} {threshold : Option Double} {clause : KnnClause}
      (hop : c.operator = .vectorSimilarity)
      (h : knnClause f c.operator v k threshold = .ok clause) : ComesFrom f c (.nearest clause)

/-- The literals of a criterion. -/
def Criterion.literals : Criterion → List Literal
  | unconstrained => []
  | term l => [l]
  | anyOf ls => ls
  | allOf ls => ls
  | noneOf ls => ls
  | nearest _ => []

theorem Criterion.ComesFrom.literals {f : Field} {c : Condition} {criterion : Criterion}
    (h : criterion.ComesFrom f c) : ∀ l ∈ criterion.literals, l.ComesFrom f c := by
  intro l hl
  cases h with
  | unconstrained => cases hl
  | term hone => exact List.mem_singleton.mp hl ▸ hone
  | anyOf _ hls => exact hls l hl
  | allOf _ hls => exact hls l hl
  | noneOf _ hls => exact hls l hl
  | nearest _ _ => cases hl

namespace Predicate

open Encoding

variable {f : Field} {op : Operator} {v : Operand}

/-- An operand that is empty asks for nothing; any other one is encoded. -/
theorem unlessEmpty_eq_ok {encoded : Except QueryError Criterion} {c : Criterion}
    (h : unlessEmpty f op v encoded = .ok c) :
    (v.isEmpty = true ∧ c = .unconstrained) ∨ (v.isEmpty = false ∧ encoded = .ok c) := by
  unfold unlessEmpty at h
  split at h
  · next hv =>
      split at h
      · exact .inl ⟨hv, (Except.ok.inj h).symm⟩
      · cases h
  · next hv => exact .inr ⟨by simpa using hv, h⟩

theorem unlessEmpty_of_isEmpty_eq_false {encoded : Except QueryError Criterion}
    (hv : v.isEmpty = false) : unlessEmpty f op v encoded = encoded := by
  have hne : ¬ v.isEmpty = true := by rw [hv]; exact Bool.false_ne_true
  rw [unlessEmpty, if_neg hne]

theorem members_ne_nil (hv : v.isEmpty = false) : v.members ≠ [] := by
  cases v with
  | list items =>
      intro hnil
      have hitems : items = [] := hnil
      rw [hitems] at hv
      cases hv
  | null => cases hv
  | _ => exact List.cons_ne_nil _ _

/-- A member of an operand that is not empty is not empty itself, unless the operand is a list. -/
theorem of_mem_members {w : Operand} (hv : v.isEmpty = false) (hw : w ∈ v.members) :
    w.isEmpty = false ∨ ∃ items, v = .list items ∧ w ∈ items := by
  cases v with
  | list items => exact .inr ⟨items, rfl, hw⟩
  | null => cases hv
  | _ =>
      rw [List.mem_singleton.mp hw]
      exact .inl hv

/-- The literals of the members of an operand that is not empty are some. -/
theorem memberLiterals_ne_nil {ls : List Literal} (hv : v.isEmpty = false)
    (h : memberLiterals f op v = .ok ls) : ls ≠ [] := by
  rintro rfl
  exact members_ne_nil hv (List.forall₂_nil_right_iff.mp (forall₂_of_mapM h))

variable {c : Condition} {criterion : Criterion}

/-- Conditions on one value. -/
theorem comesFrom_single {make : Literal → Criterion} (hv : v ∈ c.comparands)
    (hmake : ∀ l, l.ComesFrom f c → (make l).ComesFrom f c)
    (h : unlessEmpty f c.operator v ((equalityLiteral f c.operator v).map make) = .ok criterion) :
    criterion.ComesFrom f c := by
  rcases unlessEmpty_eq_ok h with ⟨_, rfl⟩ | ⟨hne, h⟩
  · exact .unconstrained
  · obtain ⟨l, hl, rfl⟩ := map_eq_ok h
    exact hmake l (.equality hv (.inl hne) hl)

/-- Conditions on the members of a value. -/
theorem comesFrom_members {make : List Literal → Criterion} (hc : c.comparands = v.members)
    (hlisted : ∀ items, v = .list items → c.listed = items)
    (hmake : ∀ ls, ls ≠ [] → (∀ l ∈ ls, l.ComesFrom f c) → (make ls).ComesFrom f c)
    (h : unlessEmpty f c.operator v ((memberLiterals f c.operator v).map make) = .ok criterion) :
    criterion.ComesFrom f c := by
  rcases unlessEmpty_eq_ok h with ⟨_, rfl⟩ | ⟨hv, h⟩
  · exact .unconstrained
  · obtain ⟨ls, hls, rfl⟩ := map_eq_ok h
    refine hmake ls (memberLiterals_ne_nil hv hls) fun l hl => ?_
    obtain ⟨member, hmember, hone⟩ := exists_of_mem_mapM hls hl
    refine .equality (hc ▸ hmember) ?_ hone
    rcases of_mem_members hv hmember with hne | ⟨items, hitems, hmember⟩
    · exact .inl hne
    · exact .inr ((hlisted items hitems).symm ▸ hmember)

theorem comesFrom_comparison {range : Double → NumericRange}
    (hop : c.operator.types = [.numeric, .date])
    (hrange : ∀ x, x.isNaN = false → (range x).IsEncoded)
    (h : comparison f c.operator v range = .ok criterion) : criterion.ComesFrom f c := by
  obtain ⟨x, hx, rfl⟩ := map_eq_ok h
  exact .term (.range hop (hrange x (isNaN_of_boundOf hx)))

theorem comesFrom_pattern {mode : TextMode} (hc : c.pattern? = some (v, mode))
    (h : pattern f c.operator v mode = .ok criterion) : criterion.ComesFrom f c := by
  rcases unlessEmpty_eq_ok h with ⟨_, rfl⟩ | ⟨hv, h⟩
  · exact .unconstrained
  · obtain ⟨l, hl, rfl⟩ := map_eq_ok h
    exact .term (.pattern hc hv hl)

theorem criterionOf_of_pattern? {mode : TextMode} (hc : c.pattern? = some (v, mode)) :
    criterionOf f c = pattern f c.operator v mode := by
  cases c with
  | startsWith w => cases hc; rfl
  | endsWith w => cases hc; rfl
  | containing w => cases hc; rfl
  | like w => cases hc; rfl
  | _ => cases hc

/-- The criterion of a condition comes from the condition. -/
theorem comesFrom_criterionOf (h : criterionOf f c = .ok criterion) :
    criterion.ComesFrom f c := by
  cases c with
  | equal v => exact comesFrom_single (List.mem_singleton_self v) (fun _ hl => .term hl) h
  | notEqual v =>
      refine comesFrom_single (List.mem_singleton_self v) (fun l hl => ?_) h
      exact .noneOf (List.cons_ne_nil l []) fun l' hl' => List.mem_singleton.mp hl' ▸ hl
  | isIn vs =>
      have hlisted : ∀ items, vs = .list items → (Condition.isIn vs).listed = items := by
        rintro items rfl
        rfl
      exact comesFrom_members rfl hlisted (fun _ hne hls => .anyOf hne hls) h
  | notIn vs =>
      have hlisted : ∀ items, vs = .list items → (Condition.notIn vs).listed = items := by
        rintro items rfl
        rfl
      exact comesFrom_members rfl hlisted (fun _ hne hls => .noneOf hne hls) h
  | containsAll vs =>
      have hlisted : ∀ items, vs = .list items → (Condition.containsAll vs).listed = items := by
        rintro items rfl
        rfl
      exact comesFrom_members rfl hlisted (fun _ hne hls => .allOf hne hls) h
  | between lower upper =>
      obtain ⟨low, hlow, h⟩ := bind_eq_ok h
      obtain ⟨high, hhigh, h⟩ := bind_eq_ok h
      cases Except.ok.inj h
      have hrange := NumericRange.isEncoded_between (isNaN_of_boundOf hlow) (isNaN_of_boundOf hhigh)
      exact .term (.range rfl hrange)
  | greaterThan v => exact comesFrom_comparison rfl (fun _ => NumericRange.isEncoded_greaterThan) h
  | atLeast v => exact comesFrom_comparison rfl (fun _ => NumericRange.isEncoded_atLeast) h
  | lessThan v => exact comesFrom_comparison rfl (fun _ => NumericRange.isEncoded_lessThan) h
  | atMost v => exact comesFrom_comparison rfl (fun _ => NumericRange.isEncoded_atMost) h
  | isTrue =>
      cases Except.ok.inj h
      exact .term (.truth true rfl)
  | isFalse =>
      cases Except.ok.inj h
      exact .term (.truth false rfl)
  | isMissing =>
      cases Except.ok.inj h
      exact .term (.missing rfl)
  | startsWith v => exact comesFrom_pattern rfl h
  | endsWith v => exact comesFrom_pattern rfl h
  | containing v => exact comesFrom_pattern rfl h
  | like v => exact comesFrom_pattern rfl h
  | near center radius unit =>
      obtain ⟨circle, hcircle, rfl⟩ := map_eq_ok h
      exact .term (.circle rfl hcircle)
  | nearest v k threshold =>
      have h : (if v.isEmpty then .error (missing f .vectorSimilarity)
          else (knnClause f .vectorSimilarity v k threshold).map .nearest) = .ok criterion := h
      split at h
      · cases h
      · obtain ⟨clause, hclause, rfl⟩ := map_eq_ok h
        exact .nearest rfl hclause

/-- A condition has a predicate if the field supports its operator and it has a criterion. -/
theorem of_eq_ok_iff {p : Predicate} :
    of f c = .ok p ↔ c.operator.supports f.type = true ∧
      ∃ criterion, criterionOf f c = .ok criterion ∧ ⟨f, c.operator, criterion⟩ = p := by
  unfold of
  constructor
  · intro h
    split at h
    · next hsupported => exact ⟨hsupported, map_eq_ok h⟩
    · cases h
  · rintro ⟨hsupported, criterion, hcriterion, rfl⟩
    rw [if_pos hsupported, hcriterion]
    rfl

/-- A predicate of a condition asks about the field of the condition, and its criterion comes from
the condition. -/
theorem of_eq_ok {p : Predicate} (h : of f c = .ok p) :
    p.field = f ∧ c.operator.supports f.type = true ∧ criterionOf f c = .ok p.criterion := by
  obtain ⟨hsupported, criterion, hcriterion, rfl⟩ := of_eq_ok_iff.mp h
  exact ⟨rfl, hsupported, hcriterion⟩

end Predicate

end IndexQuery
