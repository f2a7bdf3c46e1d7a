import IndexQuery.Proofs.Tree.NormalForm
set_option autoImplicit false

/-! # What a compiled list of predicates consists of

Every predicate contributes conditions, a clause, or nothing. The compiled tree of a list of
predicates consists of all their conditions, in order, and of the last clause
(`compile_eq_ofParts`): nothing is lost, repeated or moved when a later clause replaces an earlier
one, or when conditions join the filter of a search that is there already. -/

namespace IndexQuery

namespace Predicate

open IndexQuery.Tree

/-! ## Contributions -/

/-- The conditions a predicate contributes. -/
def leaves (p : Predicate) : List Tree :=
  match p.criterion with
  | .unconstrained => []
  | .term literal => [.term p.field.key literal]
  | .anyOf literals => [.union p.field.key literals]
  | .allOf literals => literals.map (Tree.term p.field.key)
  | .noneOf literals => [.negatedUnion p.field.key literals]
  | .nearest _ => []

/-- The clause a predicate contributes. -/
def clause? (p : Predicate) : Option KnnClause :=
  match p.criterion with
  | .nearest clause => some clause
  | _ => none

/-- The clause of the last predicate that has one. -/
def lastClause (ps : List Predicate) : Option KnnClause := (ps.filterMap clause?).getLast?

theorem isLeaf_of_mem_leaves {p : Predicate} {t : Tree} (ht : t ∈ p.leaves) : IsLeaf t := by
  unfold leaves at ht
  cases hc : p.criterion with
  | unconstrained => simp [hc] at ht
  | term literal =>
      simp only [hc, List.mem_singleton] at ht
      exact ht ▸ .term _ _
  | anyOf literals =>
      simp only [hc, List.mem_singleton] at ht
      exact ht ▸ .union _ _
  | allOf literals =>
      simp only [hc, List.mem_map] at ht
      obtain ⟨literal, _, rfl⟩ := ht
      exact .term _ _
  | noneOf literals =>
      simp only [hc, List.mem_singleton] at ht
      exact ht ▸ .negatedUnion _ _
  | nearest clause => simp [hc] at ht

theorem isLeaf_of_mem_flatMap {ps : List Predicate} {t : Tree} (ht : t ∈ ps.flatMap leaves) :
    IsLeaf t := by
  obtain ⟨p, _, hp⟩ := List.mem_flatMap.mp ht
  exact isLeaf_of_mem_leaves hp

/-- A predicate with a clause contributes no condition. -/
theorem leaves_eq_nil_of_clause? {p : Predicate} {clause : KnnClause}
    (hp : p.clause? = some clause) : p.leaves = [] := by
  unfold clause? at hp
  unfold leaves
  split at hp
  · next h => simp only [h]
  · cases hp

/-- One more predicate in front gives way to a clause behind it. -/
theorem lastClause_cons (p : Predicate) (ps : List Predicate) :
    lastClause (p :: ps) = (lastClause ps).or p.clause? := by
  unfold lastClause
  cases hp : p.clause? with
  | none => rw [List.filterMap_cons_none hp, Option.or_none]
  | some clause =>
      rw [List.filterMap_cons_some hp, List.getLast?_cons]
      cases (ps.filterMap clause?).getLast? <;> rfl

/-! ## Compilation -/

/-- Conditions that come from a list of literals are appended one by one. -/
theorem foldl_term (key : String) (literals : List Literal) {xs : List Tree}
    (hx : ∀ t ∈ xs, IsLeaf t) :
    literals.foldl (fun t literal => t.and (.term key literal)) (ofLeaves xs)
      = ofLeaves (xs ++ literals.map (Tree.term key)) := by
  induction literals generalizing xs with
  | nil => rw [List.map_nil, List.append_nil]; rfl
  | cons literal literals ih =>
      have hone : ∀ t ∈ [Tree.term key literal], IsLeaf t := by simp [IsLeaf.term]
      have hall : ∀ t ∈ xs ++ [Tree.term key literal], IsLeaf t := by
        intro t ht
        rcases List.mem_append.mp ht with ht | ht
        · exact hx t ht
        · exact hone t ht
      have hand : (ofLeaves xs).and (.term key literal) = ofLeaves (xs ++ [.term key literal]) :=
        ofLeaves_and hx hone
      rw [List.foldl_cons, hand, ih hall, List.append_assoc]
      rfl

theorem apply_root (p : Predicate) : p.apply root = ofParts p.leaves p.clause? := by
  have hnil : ∀ t ∈ ([] : List Tree), IsLeaf t := by simp
  unfold Predicate.apply leaves clause?
  cases p.criterion with
  | unconstrained => rfl
  | allOf literals => exact foldl_term p.field.key literals hnil
  | nearest clause => rfl
  | _ => exact root_and _

/-- The compiled tree has the conditions of the predicates, in order, and the last clause. -/
theorem compile_eq_ofParts (ps : List Predicate) :
    compile ps = ofParts (ps.flatMap leaves) (lastClause ps) := by
  induction ps with
  | nil => rfl
  | cons p ps ih =>
      -- compiling is a homomorphism, so the first predicate stands in front of the rest
      have hsplit : compile (p :: ps) = (p.apply root).and (compile ps) :=
        compile_append [p] ps
      rw [hsplit, apply_root, ih, lastClause_cons, List.flatMap_cons]
      exact ofParts_and (fun _ => isLeaf_of_mem_leaves) (fun _ => isLeaf_of_mem_flatMap) _ _

theorem leaves_compile (ps : List Predicate) : (compile ps).leaves = ps.flatMap leaves := by
  rw [compile_eq_ofParts, leaves_ofParts fun _ => isLeaf_of_mem_flatMap]

theorem clause?_compile (ps : List Predicate) : (compile ps).clause? = lastClause ps := by
  rw [compile_eq_ofParts, clause?_ofParts fun _ => isLeaf_of_mem_flatMap]

/-! ## Compiled trees are built -/

theorem built_foldl_term (key : String) (literals : List Literal) {t : Tree} (ht : Built t) :
    Built (literals.foldl (fun t literal => t.and (.term key literal)) t) := by
  induction literals generalizing t with
  | nil => exact ht
  | cons literal literals ih => exact ih (ht.and (.term key literal))

theorem built_apply (p : Predicate) {t : Tree} (ht : Built t) : Built (p.apply t) := by
  unfold Predicate.apply
  cases p.criterion with
  | unconstrained => exact ht
  | term literal => exact ht.and (.term _ _)
  | anyOf literals => exact ht.and (.union _ _)
  | allOf literals => exact built_foldl_term _ literals ht
  | noneOf literals => exact ht.and (.negatedUnion _ _)
  | nearest clause => exact ht.withClause clause

theorem built_compile (ps : List Predicate) : Built (compile ps) := by
  have hfold : ∀ t, Built t → Built (ps.foldl (fun tree p => p.apply tree) t) := by
    induction ps with
    | nil => exact fun t ht => ht
    | cons p ps ih => exact fun t ht => ih _ (built_apply p ht)
  exact hfold root .root

/-! ## The normal form -/

/-- Every tree that is built is normal: below a conjunction there are conditions only, and below a
clause there is no other clause. A compiled list of predicates is built, its conditions are those of
the predicates in order, and its clause is the last one. -/
theorem built_normal_and_compiled_parts :
    (∀ t : Tree, Built t → IsNormal t ∧ ∀ u, u = t ∨ Below u t → ∀ s, Below s u →
      ((∃ children, u = intersect children) → IsLeaf s) ∧
      ((∃ filter clause, u = knn filter clause) → ∀ g d, s ≠ knn g d)) ∧
    ∀ ps : List Predicate, Built (compile ps) ∧ (compile ps).leaves = ps.flatMap leaves ∧
      (compile ps).clause? = lastClause ps := by
  refine ⟨fun t ht => ⟨ht.isNormal, ?_⟩,
    fun ps => ⟨built_compile ps, leaves_compile ps, clause?_compile ps⟩⟩
  intro u hu s hs
  constructor
  · rintro ⟨children, rfl⟩
    exact ht.isNormal.isLeaf_of_below_intersect hu hs
  · rintro ⟨filter, clause, rfl⟩ g d rfl
    have hbelow : Below (knn g d) t := by
      rcases hu with rfl | hu
      · exact hs
      · exact hs.trans hu
    cases ht.isNormal.clause?_of_below hbelow

/-- A clause that comes first moves outwards, past conditions that come later. -/
theorem built_normal_and_compiled_parts_search_first :
    let clause : KnnClause := ⟨"vec", 3, [⟨0⟩], .float32, .l2, none⟩
    let conditions := intersect [.term "age" .missing, .union "tags" []]
    let t := ((root.withClause clause).and (.term "age" .missing)).and (.union "tags" [])
    Built t ∧ t = knn conditions clause ∧ IsNormal t ∧ conditions ≠ knn conditions clause ∧
      IsLeaf (.term "age" .missing) := by
  intro clause conditions t
  have ht : t = knn conditions clause := by
    simp [t, conditions, Tree.withClause, Tree.and, joinInside, join]
  have hbuilt : Built t := ((Built.root.withClause clause).and (.term _ _)).and (.union _ _)
  have hbelow : Below conditions t := ht ▸ .filter conditions clause
  obtain ⟨hnormal, hparts⟩ := built_normal_and_compiled_parts.1 t hbuilt
  exact ⟨hbuilt, ht, hnormal, (hparts t (.inl rfl) conditions hbelow).2 ⟨_, _, ht⟩ _ _,
    (hparts conditions (.inr hbelow) _ (.child (by simp))).1 ⟨_, rfl⟩⟩

end Predicate

end IndexQuery
