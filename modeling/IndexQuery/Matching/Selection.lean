import IndexQuery.Matching.Distance
import IndexQuery.Matching.Tags
import IndexQuery.Matching.Words
import IndexQuery.Sorting.Stable
import IndexQuery.Tree
set_option autoImplicit false

/-! # What a query selects

`Tree.accepts` evaluates a tree on a document, a record under the keys of the fields: texts and
tags are texts (tags also lists), numbers and dates are numbers, points are texts, lists or
records, vectors are lists of numbers. `Tree.select` evaluates a tree on a list of documents; a
search for nearest neighbours ranks the accepted documents that have a distance and keeps the first
`k`. What is not a number is neither nearer nor farther than anything, so such distances make
comparisons contradict each other, and ranking may be given up; then nothing is selected, not even
an empty list. -/

namespace IndexQuery

namespace Matching

/-! ## Literals -/

/-- The number in a stored value; a text may hold one. -/
def numberOf : Datum → Option Double
  | .text s => Double.ofText? (Text.trim s.toList)
  | d => d.double?

/-- The point in a stored value: a text `lon,lat`, a list of the two, or a record with both. -/
def pointOf : Datum → Option GeoPoint
  | .text s => do
    let (lon, lat) ← Text.splitFirst ',' s.toList
    let lon ← Double.ofText? (Text.trim lon)
    let lat ← Double.ofText? (Text.trim lat)
    some ⟨lon, lat⟩
  | .list [lon, lat] => do
    let lon ← lon.double?
    let lat ← lat.double?
    some ⟨lon, lat⟩
  | .record entries => do
    let lon ← (← entries.lookup "lon").double?
    let lat ← (← entries.lookup "lat").double?
    some ⟨lon, lat⟩
  | _ => none

/-- The stored value under a key; an absent value counts as none. -/
def stored (key : String) (doc : Datum) : Option Datum :=
  (doc.get? key).filter (!·.isNull)

/-- Whether a stored value meets a literal. -/
def literalMatches (literal : Literal) (value : Option Datum) : Bool :=
  match literal with
  | .missing => value.isNone
  | .text mode pattern =>
    (value.bind Datum.text?).any fun s => textMatches mode pattern.toList s.toList
  | .tag mode wanted => value.any fun d => (tagsOf d).any (tagMatches mode wanted.toList ·)
  | .numeric range => (value.bind numberOf).any range.contains
  | .geo circle => (value.bind pointOf).any (inCircle circle)

/-- Whether a document meets a literal on a key. -/
def termMatches (key : String) (literal : Literal) (doc : Datum) : Bool :=
  literalMatches literal (stored key doc)

/-- Whether a document lies within the distance of a clause, if the clause bounds it. -/
def withinThreshold (clause : KnnClause) (doc : Datum) : Bool :=
  match clause.threshold with
  | none => true
  | some bound => (distance clause doc).any (·.le bound)

end Matching

open Matching

namespace Tree

/-! ## One document -/

mutual

/-- Whether a document belongs to a query. A search for neighbours is judged by its filter and its
bound on the distance; who is among the nearest depends on the other documents. -/
def accepts : Tree → Datum → Bool
  | root, _ => true
  | term key literal, doc => termMatches key literal doc
  | intersect children, doc => acceptsAll children doc
  | union key literals, doc => literals.any (termMatches key · doc)
  | negatedUnion key literals, doc => !literals.any (termMatches key · doc)
  | knn filter clause, doc => filter.accepts doc && withinThreshold clause doc

def acceptsAll : List Tree → Datum → Bool
  | [], _ => true
  | child :: rest, doc => child.accepts doc && acceptsAll rest doc

end

end Tree

/-! ## Many documents -/

namespace Matching

/-- Whether an item is nearer than another. The items come with their distances. -/
def nearer {α : Type} (a b : Double × α) : Bool := a.1.lt b.1

/-- The items with the nearest first. Items at the same distance keep their order. -/
def ranked {α : Type} (items : List (Double × α)) : Option (List (Double × α)) :=
  Sorting.stableSort? nearer items

end Matching

namespace Tree

/-- The items whose documents a query selects, in order. -/
def selectBy {α : Type} (document : α → Datum) (tree : Tree) (items : List α) :
    Option (List α) :=
  let accepted := items.filter fun item => tree.accepts (document item)
  match tree with
  | knn _ clause =>
    let measured := accepted.filterMap fun item =>
      (distance clause (document item)).map fun d => (d, item)
    (ranked measured).map fun sorted => (sorted.take clause.k).map (·.2)
  | _ => some accepted

/-- The documents a query selects, in order. -/
def select (tree : Tree) (docs : List Datum) : Option (List Datum) := tree.selectBy id docs

end Tree

end IndexQuery
