import IndexQuery.Predicate
set_option autoImplicit false

/-! # Conjunction as an algebra

Trees with `and` and the tree of all documents form a monoid, whatever the trees look like: searches
for neighbours may be nested, and conjunctions may be empty or stand inside each other. Adding a
predicate to a tree is conjunction with the tree of the predicate alone, so `Predicate.compile` is a
homomorphism from lists of predicates.

Conjunction peels searches for neighbours off both sides (`knn_and_knn`, `knn_and`, `and_knn`) until
two trees without a clause meet, which `join` puts together. Associativity follows this peeling:
first for `join`, then with searches allowed in one more place at a time. -/

namespace IndexQuery

namespace Tree

/-! ## Trees without a clause -/

theorem join_root (a : Tree) : join a root = a := by
  cases a <;> rfl

theorem root_join (a : Tree) : join root a = a := by
  cases a <;> rfl

/-- `join` is associative: the children of both sides stay in order, and what is no conjunction
counts as one child. -/
theorem join_assoc (a b c : Tree) : join (join a b) c = join a (join b c) := by
  cases b with
  | root => rw [join_root, root_join]
  -- a conjunction in the middle adds its children, anything else adds itself
  | intersect ys =>
      cases a <;> cases c <;>
        simp only [join, List.append_assoc, List.cons_append]
  | _ =>
      cases a <;> cases c <;>
        simp only [join, List.append_assoc, List.cons_append, List.nil_append]

/-- Joining trees without a clause gives no clause. -/
theorem clause?_join {a b : Tree} (ha : a.clause? = none) (hb : b.clause? = none) :
    (join a b).clause? = none := by
  cases a <;> cases b <;> first | rfl | exact ha | exact hb

/-- Induction over the searches for neighbours around a tree without a clause. -/
@[elab_as_elim]
theorem peelInduction {motive : Tree → Prop}
    (plain : ∀ t : Tree, t.clause? = none → motive t)
    (search : ∀ filter clause, motive filter → motive (knn filter clause)) : ∀ t, motive t
  | knn filter clause => search filter clause (peelInduction plain search filter)
  | root => plain _ rfl
  | term _ _ => plain _ rfl
  | intersect _ => plain _ rfl
  | union _ _ => plain _ rfl
  | negatedUnion _ _ => plain _ rfl

/-! ## Peeling searches off a conjunction -/

theorem joinInside_eq_join (a : Tree) {b : Tree} (hb : b.clause? = none) :
    joinInside a b = join a b := by
  cases b with
  | knn filter clause => cases hb
  | _ => rfl

theorem and_eq_joinInside {a : Tree} (ha : a.clause? = none) (b : Tree) :
    a.and b = joinInside a b := by
  cases a with
  | knn filter clause => cases ha
  | _ => rw [Tree.and] <;> (intros; contradiction)

theorem and_eq_join {a b : Tree} (ha : a.clause? = none) (hb : b.clause? = none) :
    a.and b = join a b := by
  rw [and_eq_joinInside ha, joinInside_eq_join a hb]

theorem knn_and_knn (f g : Tree) (c d : KnnClause) :
    (knn f c).and (knn g d) = knn (f.and g) d := by
  rw [Tree.and]

theorem knn_and (f : Tree) (c : KnnClause) {b : Tree} (hb : b.clause? = none) :
    (knn f c).and b = knn (f.and b) c := by
  cases b with
  | knn filter clause => cases hb
  | _ => rw [Tree.and]; intros; contradiction

theorem and_knn {a : Tree} (ha : a.clause? = none) (f : Tree) (c : KnnClause) :
    a.and (knn f c) = knn (a.and f) c := by
  rw [and_eq_joinInside ha, and_eq_joinInside ha, joinInside]

/-- Without a clause on either side there is none in the conjunction. -/
theorem clause?_and {a b : Tree} (ha : a.clause? = none) (hb : b.clause? = none) :
    (a.and b).clause? = none := by
  rw [and_eq_join ha hb]
  exact clause?_join ha hb

/-! ## The monoid -/

theorem and_root (t : Tree) : t.and root = t := by
  induction t using peelInduction with
  | plain t ht => rw [and_eq_join ht rfl, join_root]
  | search filter clause ih => rw [knn_and filter clause rfl, ih]

theorem root_and (t : Tree) : root.and t = t := by
  induction t using peelInduction with
  | plain t ht => rw [and_eq_join rfl ht, root_join]
  | search filter clause ih => rw [and_knn rfl, ih]

/-- Associativity with searches for neighbours on the right only. -/
theorem and_assoc_right {a b : Tree} (ha : a.clause? = none) (hb : b.clause? = none) (c : Tree) :
    (a.and b).and c = a.and (b.and c) := by
  induction c using peelInduction with
  | plain c hc =>
      rw [and_eq_join ha hb, and_eq_join hb hc, and_eq_join (clause?_join ha hb) hc,
        and_eq_join ha (clause?_join hb hc), join_assoc]
  | search filter clause ih => rw [and_knn (clause?_and ha hb), ih, and_knn hb, and_knn ha]

/-- Associativity with searches for neighbours in the middle and on the right. -/
theorem and_assoc_middle {a : Tree} (ha : a.clause? = none) (b c : Tree) :
    (a.and b).and c = a.and (b.and c) := by
  induction b using peelInduction generalizing c with
  | plain b hb => exact and_assoc_right ha hb c
  | search f d ih =>
      -- the search in the middle comes off first, then one on the right if there is one
      rw [and_knn ha]
      cases c using peelInduction with
      | plain c hc => rw [knn_and _ _ hc, knn_and _ _ hc, ih, and_knn ha]
      | search g e => rw [knn_and_knn, knn_and_knn, ih, and_knn ha]

/-- Conjunction is associative. -/
theorem and_assoc (a b c : Tree) : (a.and b).and c = a.and (b.and c) := by
  induction a using peelInduction generalizing b c with
  | plain a ha => exact and_assoc_middle ha b c
  | search f d ih =>
      -- one search comes off each side that has one; the last of their clauses stays on both ways
      cases b using peelInduction with
      | plain b hb =>
          rw [knn_and _ _ hb]
          cases c using peelInduction with
          | plain c hc => rw [knn_and _ _ hc, knn_and _ _ (clause?_and hb hc), ih]
          | search h e => rw [knn_and_knn, and_knn hb, knn_and_knn, ih]
      | search g d' =>
          rw [knn_and_knn]
          cases c using peelInduction with
          | plain c hc => rw [knn_and _ _ hc, knn_and _ _ hc, knn_and_knn, ih]
          | search h e => rw [knn_and_knn, knn_and_knn, knn_and_knn, ih]

/-- Attaching a clause is conjunction with a search among all documents. -/
theorem withClause_eq_and (t : Tree) (clause : KnnClause) :
    t.withClause clause = t.and (knn root clause) := by
  cases t using peelInduction with
  | plain t ht =>
      rw [and_knn ht, and_root]
      cases t with
      | knn filter old => cases ht
      | _ => rfl
  | search filter old =>
      rw [knn_and_knn, and_root]
      rfl

/-- A fold that adds one tree an item starts anywhere as it starts at the tree of all documents. -/
theorem foldl_and {α : Type} (tree : α → Tree) (xs : List α) (t : Tree) :
    xs.foldl (fun t x => t.and (tree x)) t
      = t.and (xs.foldl (fun t x => t.and (tree x)) root) := by
  induction xs generalizing t with
  | nil => exact (and_root t).symm
  | cons x xs ih =>
      rw [List.foldl_cons, List.foldl_cons, ih (t.and (tree x)), ih (root.and (tree x)), root_and,
        and_assoc]

end Tree

namespace Predicate

open IndexQuery.Tree

/-! ## Predicates -/

/-- Adding a predicate is conjunction with its tree. -/
theorem apply_eq_and (p : Predicate) (t : Tree) : p.apply t = t.and (p.apply root) := by
  cases hc : p.criterion with
  | unconstrained => simp only [Predicate.apply, hc, and_root]
  | allOf literals =>
      simp only [Predicate.apply, hc]
      exact foldl_and (Tree.term p.field.key) literals t
  | nearest clause =>
      simp only [Predicate.apply, hc]
      rw [withClause_eq_and, withClause_eq_and, root_and]
  | _ => simp only [Predicate.apply, hc, root_and]

theorem compile_eq_foldl_and (ps : List Predicate) :
    compile ps = ps.foldl (fun t p => t.and (p.apply root)) root := by
  have hstep : (fun (t : Tree) (p : Predicate) => p.apply t) = fun t p => t.and (p.apply root) := by
    funext t p
    exact apply_eq_and p t
  rw [compile, hstep]

theorem compile_append (ps qs : List Predicate) :
    compile (ps ++ qs) = (compile ps).and (compile qs) := by
  simp only [compile_eq_foldl_and, List.foldl_append]
  exact foldl_and _ qs _

/-- Trees are a monoid under conjunction, and compiling is a homomorphism into it. -/
theorem conjunction_is_monoid :
    (∀ a b c : Tree, (a.and b).and c = a.and (b.and c)) ∧
    (∀ t : Tree, root.and t = t ∧ t.and root = t) ∧
    (∀ (p : Predicate) (t : Tree), p.apply t = t.and (p.apply root)) ∧
    ∀ ps qs : List Predicate, compile (ps ++ qs) = (compile ps).and (compile qs) :=
  ⟨and_assoc, fun t => ⟨root_and t, and_root t⟩, apply_eq_and, compile_append⟩

end Predicate

end IndexQuery
