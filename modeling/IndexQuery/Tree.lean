import IndexQuery.Literal
set_option autoImplicit false

/-! # Query trees

A `Tree` is a query as a data structure: every document, one literal on one key, a conjunction, a
disjunction of literals on one key, its negation, or the nearest neighbours among the documents of
another tree. `intersect` is conjunction. It keeps trees flat: the tree of all documents disappears,
conjunctions are merged, and a search for neighbours stays outermost, what is added to it joining
its filter. -/

namespace IndexQuery

/-- A query. -/
inductive Tree where
  /-- every document -/
  | root
  | term (key : String) (literal : Literal)
  | intersect (children : List Tree)
  /-- at least one of the alternatives -/
  | union (key : String) (alternatives : List Literal)
  /-- none of the alternatives -/
  | negatedUnion (key : String) (alternatives : List Literal)
  /-- the nearest neighbours among the documents of the filter -/
  | knn (filter : Tree) (clause : KnnClause)

namespace Tree

instance : Inhabited Tree := ⟨root⟩

/-! ## Parts -/

def isRoot : Tree → Bool
  | root => true
  | _ => false

/-- The clause of a search for neighbours. -/
def clause? : Tree → Option KnnClause
  | knn _ clause => some clause
  | _ => none

/-! ## Conjunction -/

/-- The conjunction of two trees that are not searches for neighbours. -/
def join : Tree → Tree → Tree
  | tree, root => tree
  | root, other => other
  | intersect xs, intersect ys => intersect (xs ++ ys)
  | intersect xs, other => intersect (xs ++ [other])
  | tree, intersect ys => intersect (tree :: ys)
  | tree, other => intersect [tree, other]

/-- The conjunction of a tree that is not a search for neighbours with any other. -/
def joinInside (tree : Tree) : Tree → Tree
  | knn filter clause => knn (joinInside tree filter) clause
  | other => join tree other

/-- Conjunction. Of two searches for neighbours, the clause of the second counts. -/
def and : Tree → Tree → Tree
  | knn filter _, knn filter' clause' => knn (and filter filter') clause'
  | knn filter clause, other => knn (and filter other) clause
  | tree, other => joinInside tree other

/-- The nearest neighbours among the documents of a tree. A clause that is there already is
replaced. -/
def withClause (tree : Tree) (clause : KnnClause) : Tree :=
  match tree with
  | knn filter _ => knn filter clause
  | other => knn other clause

/-! ## Equality up to numeric equality -/

def sameLiterals : List Literal → List Literal → Bool
  | [], [] => true
  | a :: as, b :: bs => a.same b && sameLiterals as bs
  | _, _ => false

mutual

/-- Equality of trees, numbers compared as numbers: the zeros are equal, and a tree with something
that is not a number is not even equal to itself. -/
def same : Tree → Tree → Bool
  | root, root => true
  | term k l, term k' l' => k == k' && l.same l'
  | intersect xs, intersect ys => sameTrees xs ys
  | union k ls, union k' ls' => k == k' && sameLiterals ls ls'
  | negatedUnion k ls, negatedUnion k' ls' => k == k' && sameLiterals ls ls'
  | knn f c, knn f' c' => f.same f' && c.same c'
  | _, _ => false

def sameTrees : List Tree → List Tree → Bool
  | [], [] => true
  | a :: as, b :: bs => a.same b && sameTrees as bs
  | _, _ => false

end

end Tree

end IndexQuery
