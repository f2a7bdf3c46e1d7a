import IndexQuery.Proofs.Tree.Algebra
set_option autoImplicit false

/-! # The normal form of trees

However a tree is put together from single conditions by conjunction and by attaching clauses, it is
flat: a list of conditions in order and at most one clause around them. `ofParts` is the tree of
these two parts, and conjunction acts on the parts (`ofParts_and`): conditions are appended, and the
clause on the right wins. A compiled list of predicates has the conditions of its predicates, in
order, and the clause of the last predicate that has one (`compile_eq_ofParts`).

Rendering depends on the normal form, since it writes a clause only if it is outermost. -/

namespace IndexQuery

namespace Tree

/-! ## Shapes -/

/-- A condition on one key. -/
inductive IsLeaf : Tree → Prop
  | term (key : String) (literal : Literal) : IsLeaf (term key literal)
  | union (key : String) (literals : List Literal) : IsLeaf (union key literals)
  | negatedUnion (key : String) (literals : List Literal) : IsLeaf (negatedUnion key literals)

/-- The tree of all documents, a condition, or a conjunction of two conditions or more. -/
inductive IsFlat : Tree → Prop
  | root : IsFlat root
  | leaf {t : Tree} (ht : IsLeaf t) : IsFlat t
  | intersect {children : List Tree} (two : 2 ≤ children.length)
      (leaves : ∀ t ∈ children, IsLeaf t) : IsFlat (intersect children)

/-- A flat tree with at most one clause around it. -/
inductive IsNormal : Tree → Prop
  | flat {t : Tree} (ht : IsFlat t) : IsNormal t
  | knn {filter : Tree} (clause : KnnClause) (ht : IsFlat filter) : IsNormal (knn filter clause)

/-- `Below s t`: the tree `s` occurs in `t`, and is not `t` itself. -/
inductive Below : Tree → Tree → Prop
  | child {s : Tree} {children : List Tree} (hs : s ∈ children) : Below s (intersect children)
  | filter (s : Tree) (clause : KnnClause) : Below s (knn s clause)
  | trans {s t u : Tree} (hst : Below s t) (htu : Below t u) : Below s u

/-- The trees that can be put together, in any order and nesting, from the tree of all documents,
single literals, alternatives and negated alternatives by conjunction and by attaching a clause. -/
inductive Built : Tree → Prop
  | root : Built root
  | term (key : String) (literal : Literal) : Built (term key literal)
  | union (key : String) (literals : List Literal) : Built (union key literals)
  | negatedUnion (key : String) (literals : List Literal) : Built (negatedUnion key literals)
  | and {a b : Tree} (ha : Built a) (hb : Built b) : Built (a.and b)
  | withClause {t : Tree} (ht : Built t) (clause : KnnClause) : Built (t.withClause clause)

/-! ## Parts -/

/-- The conjunction of a list of conditions. -/
def ofLeaves : List Tree → Tree
  | [] => root
  | [leaf] => leaf
  | leaves => intersect leaves

/-- The conjunction of a list of conditions, inside a clause if one is given. -/
def ofParts (leaves : List Tree) : Option KnnClause → Tree
  | none => ofLeaves leaves
  | some clause => knn (ofLeaves leaves) clause

/-- The conditions of a tree, in order. -/
def leaves : Tree → List Tree
  | root => []
  | intersect children => children
  | knn filter _ => filter.leaves
  | leaf => [leaf]

theorem IsLeaf.clause?_eq_none {t : Tree} (ht : IsLeaf t) : t.clause? = none := by
  cases ht <;> rfl

theorem IsLeaf.leaves_eq {t : Tree} (ht : IsLeaf t) : t.leaves = [t] := by
  cases ht <;> rfl

theorem clause?_ofLeaves {xs : List Tree} (hx : ∀ t ∈ xs, IsLeaf t) :
    (ofLeaves xs).clause? = none := by
  match xs, hx with
  | [], _ => rfl
  | [x], hx => exact (hx x List.mem_cons_self).clause?_eq_none
  | _ :: _ :: _, _ => rfl

theorem leaves_ofLeaves {xs : List Tree} (hx : ∀ t ∈ xs, IsLeaf t) :
    (ofLeaves xs).leaves = xs := by
  match xs, hx with
  | [], _ => rfl
  | [x], hx => exact (hx x List.mem_cons_self).leaves_eq
  | _ :: _ :: _, _ => rfl

theorem leaves_ofParts {xs : List Tree} (hx : ∀ t ∈ xs, IsLeaf t) (clause? : Option KnnClause) :
    (ofParts xs clause?).leaves = xs := by
  cases clause? with
  | none => exact leaves_ofLeaves hx
  | some clause => rw [ofParts, leaves, leaves_ofLeaves hx]

theorem clause?_ofParts {xs : List Tree} (hx : ∀ t ∈ xs, IsLeaf t) (clause? : Option KnnClause) :
    (ofParts xs clause?).clause? = clause? := by
  cases clause? with
  | none => exact clause?_ofLeaves hx
  | some clause => rfl

/-! ## Conjunction of parts -/

theorem IsLeaf.join_leaf {a b : Tree} (ha : IsLeaf a) (hb : IsLeaf b) :
    join a b = intersect [a, b] := by
  cases ha <;> cases hb <;> rfl

theorem IsLeaf.join_intersect {a : Tree} (ha : IsLeaf a) (xs : List Tree) :
    join a (intersect xs) = intersect (a :: xs) := by
  cases ha <;> rfl

theorem IsLeaf.intersect_join {b : Tree} (hb : IsLeaf b) (xs : List Tree) :
    join (intersect xs) b = intersect (xs ++ [b]) := by
  cases hb <;> rfl

/-- Conjunction appends the conditions. -/
theorem ofLeaves_and {xs ys : List Tree} (hx : ∀ t ∈ xs, IsLeaf t) (hy : ∀ t ∈ ys, IsLeaf t) :
    (ofLeaves xs).and (ofLeaves ys) = ofLeaves (xs ++ ys) := by
  rw [and_eq_join (clause?_ofLeaves hx) (clause?_ofLeaves hy)]
  match xs, ys, hx, hy with
  | [], ys, _, _ => exact root_join _
  | xs, [], _, _ => rw [List.append_nil]; exact join_root _
  | [x], [y], hx, hy => exact (hx x List.mem_cons_self).join_leaf (hy y List.mem_cons_self)
  | [x], y :: y' :: ys, hx, _ => exact (hx x List.mem_cons_self).join_intersect _
  | x :: x' :: xs, [y], _, hy => exact (hy y List.mem_cons_self).intersect_join _
  | x :: x' :: xs, y :: y' :: ys, _, _ => rfl

/-- Conjunction appends the conditions and keeps the clause on the right, if there is one. -/
theorem ofParts_and {xs ys : List Tree} (hx : ∀ t ∈ xs, IsLeaf t) (hy : ∀ t ∈ ys, IsLeaf t)
    (c d : Option KnnClause) :
    (ofParts xs c).and (ofParts ys d) = ofParts (xs ++ ys) (d.or c) := by
  cases c with
  | none =>
      cases d with
      | none => exact ofLeaves_and hx hy
      | some d => exact (and_knn (clause?_ofLeaves hx) _ d).trans (by rw [ofLeaves_and hx hy]; rfl)
  | some c =>
      cases d with
      | none => exact (knn_and _ c (clause?_ofLeaves hy)).trans (by rw [ofLeaves_and hx hy]; rfl)
      | some d => exact (knn_and_knn _ _ c d).trans (by rw [ofLeaves_and hx hy]; rfl)

theorem ofParts_withClause {xs : List Tree} (hx : ∀ t ∈ xs, IsLeaf t) (c : Option KnnClause)
    (d : KnnClause) : (ofParts xs c).withClause d = ofParts xs (some d) := by
  have hd : knn root d = ofParts [] (some d) := rfl
  rw [withClause_eq_and, hd, ofParts_and hx (by simp), List.append_nil, Option.some_or]

/-! ## Trees that are built are normal -/

theorem isFlat_ofLeaves {xs : List Tree} (hx : ∀ t ∈ xs, IsLeaf t) : IsFlat (ofLeaves xs) := by
  match xs, hx with
  | [], _ => exact .root
  | [x], hx => exact .leaf (hx x List.mem_cons_self)
  | x :: y :: xs, hx => exact .intersect (by simp) hx

theorem isNormal_ofParts {xs : List Tree} (hx : ∀ t ∈ xs, IsLeaf t) (c : Option KnnClause) :
    IsNormal (ofParts xs c) := by
  cases c with
  | none => exact .flat (isFlat_ofLeaves hx)
  | some clause => exact .knn clause (isFlat_ofLeaves hx)

/-- A built tree is the tree of its parts. -/
theorem Built.exists_ofParts {t : Tree} (ht : Built t) :
    ∃ xs c, (∀ l ∈ xs, IsLeaf l) ∧ t = ofParts xs c := by
  induction ht with
  | root => exact ⟨[], none, by simp, rfl⟩
  | term key literal => exact ⟨[.term key literal], none, by simp [IsLeaf.term], rfl⟩
  | union key literals => exact ⟨[.union key literals], none, by simp [IsLeaf.union], rfl⟩
  | negatedUnion key literals =>
      exact ⟨[.negatedUnion key literals], none, by simp [IsLeaf.negatedUnion], rfl⟩
  | and ha hb iha ihb =>
      obtain ⟨xs, c, hx, rfl⟩ := iha
      obtain ⟨ys, d, hy, rfl⟩ := ihb
      refine ⟨xs ++ ys, d.or c, ?_, ofParts_and hx hy c d⟩
      intro l hl
      rcases List.mem_append.mp hl with hl | hl
      · exact hx l hl
      · exact hy l hl
  | withClause ht d ih =>
      obtain ⟨xs, c, hx, rfl⟩ := ih
      exact ⟨xs, some d, hx, ofParts_withClause hx c d⟩

theorem Built.isNormal {t : Tree} (ht : Built t) : IsNormal t := by
  obtain ⟨xs, c, hx, rfl⟩ := ht.exists_ofParts
  exact isNormal_ofParts hx c

/-! ## What occurs in a normal tree -/

/-- Nothing occurs in a condition. -/
theorem not_below_isLeaf {s t : Tree} (hst : Below s t) : ¬ IsLeaf t := by
  induction hst with
  | child hs => intro h; cases h
  | filter s clause => intro h; cases h
  | trans _ _ _ ih => exact ih

/-- Only conditions occur in a flat tree. -/
theorem IsFlat.isLeaf_of_below {s t : Tree} (hst : Below s t) (ht : IsFlat t) : IsLeaf s := by
  induction hst with
  | child hs =>
      cases ht with
      | leaf h => cases h
      | intersect two leaves => exact leaves _ hs
  | filter s clause => cases ht with | leaf h => cases h
  -- what lies in between is a condition, but nothing occurs in one
  | trans hst htu ih ih' => exact absurd (ih' ht) (not_below_isLeaf hst)

/-- Only flat trees occur in a normal tree. -/
theorem IsNormal.isFlat_of_below {s t : Tree} (hst : Below s t) (ht : IsNormal t) : IsFlat s := by
  induction hst with
  | child hs =>
      cases ht with
      | flat h => exact .leaf (h.isLeaf_of_below (.child hs))
  | filter s clause =>
      cases ht with
      | flat h => exact .leaf (h.isLeaf_of_below (.filter s clause))
      | knn _ h => exact h
  -- what lies in between is flat, so below it there are conditions only
  | trans hst htu ih ih' => exact .leaf ((ih' ht).isLeaf_of_below hst)

theorem IsFlat.clause?_eq_none {t : Tree} (ht : IsFlat t) : t.clause? = none := by
  cases ht with
  | root => rfl
  | leaf h => exact h.clause?_eq_none
  | intersect two leaves => rfl

/-- Wherever a conjunction stands in a normal tree, only conditions are below it. -/
theorem IsNormal.isLeaf_of_below_intersect {s t : Tree} {children : List Tree} (ht : IsNormal t)
    (hc : intersect children = t ∨ Below (intersect children) t)
    (hs : Below s (intersect children)) : IsLeaf s := by
  have hflat : IsFlat (intersect children) := by
    rcases hc with rfl | hc
    · cases ht with | flat h => exact h
    · exact ht.isFlat_of_below hc
  exact hflat.isLeaf_of_below hs

/-- What occurs in a search for neighbours is its filter or occurs in it. -/
theorem eq_or_below_of_below_knn {s filter : Tree} {clause : KnnClause}
    (h : Below s (knn filter clause)) : s = filter ∨ Below s filter := by
  generalize hu : knn filter clause = u at h
  induction h with
  | child hs => cases hu
  | filter s c =>
      cases hu
      exact .inl rfl
  | trans hst htu ih ih' =>
      rcases ih' hu with rfl | h
      · exact .inr hst
      · exact .inr (hst.trans h)

theorem IsFlat.mem_leaves_of_below {s t : Tree} (hst : Below s t) (ht : IsFlat t) :
    s ∈ t.leaves := by
  induction hst with
  | child hs => exact hs
  | filter s clause => cases ht with | leaf h => cases h
  -- what lies in between is a condition, but nothing occurs in one
  | trans hst htu ih ih' => exact absurd (ht.isLeaf_of_below htu) (not_below_isLeaf hst)

/-- A condition that occurs in a normal tree is one of its conditions. -/
theorem IsNormal.mem_leaves_of_below {s t : Tree} (hst : Below s t) (ht : IsNormal t)
    (hs : IsLeaf s) : s ∈ t.leaves := by
  cases ht with
  | flat h => exact h.mem_leaves_of_below hst
  | knn clause h =>
      rcases eq_or_below_of_below_knn hst with rfl | hst
      · rw [leaves, hs.leaves_eq]
        exact List.mem_singleton_self s
      · rw [leaves]
        exact h.mem_leaves_of_below hst

/-- In a normal tree there is no clause below another one. -/
theorem IsNormal.clause?_of_below {s t : Tree} (hst : Below s t) (ht : IsNormal t) :
    s.clause? = none :=
  (ht.isFlat_of_below hst).clause?_eq_none

end Tree

end IndexQuery
