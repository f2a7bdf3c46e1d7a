set_option autoImplicit false

/-! # Sorting blocks

Sorting goes by a comparison, `less a b` saying that `a` comes before `b`. Nothing makes the
comparison an order, and sorting looks at it in few places only, so what comes out depends on which
pairs are compared. Short lists are sorted by insertion. In blocks both halves are sorted and then
merged from both ends at once: half of the items is drawn from the fronts and half from the backs.
An order makes both draws fit together. Comparisons that contradict each other can put an item into
both of them; sorting is given up then, and there is no result. -/

namespace IndexQuery.Sorting

variable {α : Type}

/-! ## Insertion -/

/-- Puts an item in front of those it comes before, beginning at the back. The items stand in
reverse. -/
def insertBack (less : α → α → Bool) (item : α) : List α → List α
  | [] => [item]
  | other :: rest =>
    if less item other then other :: insertBack less item rest else item :: other :: rest

/-- Puts items one by one into a sorted list. -/
def insertAll (less : α → α → Bool) (sorted items : List α) : List α :=
  (items.foldl (fun placed item => insertBack less item placed) sorted.reverse).reverse

/-! ## Merging from both ends -/

/-- What has been drawn from two lists, and what is left of them. -/
structure Drawn (α : Type) where
  taken : List α
  left : List α
  right : List α

/-- Draws `n` items from the fronts of two lists, from the left one where `pick` says so. -/
def draw (pick : α → α → Bool) : Nat → List α → List α → Drawn α
  | 0, left, right => ⟨[], left, right⟩
  | n + 1, l :: left, r :: right =>
    if pick l r then
      let rest := draw pick n left (r :: right)
      { rest with taken := l :: rest.taken }
    else
      let rest := draw pick n (l :: left) right
      { rest with taken := r :: rest.taken }
  | n + 1, [], right => ⟨right.take (n + 1), [], right.drop (n + 1)⟩
  | n + 1, left, [] => ⟨left.take (n + 1), left.drop (n + 1), []⟩

/-- Two sorted lists as one, unless the two draws overlap. -/
def mergeEnds? (less : α → α → Bool) (left right : List α) : Option (List α) :=
  let half := (left.length + right.length) / 2
  let front := draw (fun l r => !less r l) half left right
  let back := draw (fun l r => less r l) half left.reverse right.reverse
  if left.length ≤ front.left.length + back.left.length ∧
      right.length ≤ front.right.length + back.right.length then
    -- of an odd number of items one is left between the draws
    let middle :=
      front.left.take (front.left.length + back.left.length - left.length) ++
        front.right.take (front.right.length + back.right.length - right.length)
    some (front.taken ++ middle ++ back.taken.reverse)
  else none

/-! ## Blocks -/

/-- Two items, exchanged if the second one comes before the first. -/
def exchanged (less : α → α → Bool) (a b : α) : α × α :=
  if less b a then (b, a) else (a, b)

/-- Four items, the second and the third exchanged if need be. -/
def framed (less : α → α → Bool) (first l r last : α) : List α :=
  let (l, r) := exchanged less l r
  [first, l, r, last]

/-- Four items in order. Of two pairs the first items compete for the first place and the second
ones for the last place. -/
def sortFour (less : α → α → Bool) : List α → List α
  | [v, w, x, y] =>
    let (a, b) := exchanged less v w
    let (c, d) := exchanged less x y
    match less c a, less d b with
    | false, false => framed less a b c d
    | false, true => framed less a c d b
    | true, false => framed less c a b d
    | true, true => framed less c a d b
  | items => insertAll less [] items

def sortEight? (less : α → α → Bool) (items : List α) : Option (List α) :=
  mergeEnds? less (sortFour less (items.take 4)) (sortFour less (items.drop 4))

/-- One half of a block of `n` items: its first items, as many as the size of the block allows, and
then the others, inserted one by one. -/
def sortHalf? (less : α → α → Bool) (n : Nat) (items : List α) : Option (List α) :=
  if 16 ≤ n then do
    let start ← sortEight? less (items.take 8)
    some (insertAll less start (items.drop 8))
  else if 8 ≤ n then some (insertAll less (sortFour less (items.take 4)) (items.drop 4))
  else some (insertAll less [] items)

def blockSize : Nat := 32

def sortBlock? (less : α → α → Bool) (items : List α) : Option (List α) :=
  if items.length < 2 then some items
  else do
    let middle := items.length / 2
    let left ← sortHalf? less items.length (items.take middle)
    let right ← sortHalf? less items.length (items.drop middle)
    mergeEnds? less left right

end IndexQuery.Sorting
