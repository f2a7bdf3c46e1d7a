import IndexQuery.Sorting.Runs
set_option autoImplicit false

/-! # Stable sorting

Up to 20 items are sorted by insertion, and longer lists by runs. Lists of up to two blocks sort the
runs that are not in order as they are cut. Longer ones leave them, and sort them when they are
joined to runs in order: by partition around a pivot, down to blocks. If too many partitions in a
row come out uneven, what is left is sorted like a short list. -/

namespace IndexQuery.Sorting

variable {α : Type}

/-! ## Runs of a whole list -/

/-- How long a stretch in order has to be to count as a run of `n` items: about the root of `n`, or
less in short lists. -/
def enoughOf (n : Nat) : Nat :=
  if n ≤ 4096 then min (n - n / 2) 64
  else
    let digits := (1 + n.log2) / 2
    (2 ^ digits + n / 2 ^ digits) / 2

/-- How many of `n` items can be sorted at once. -/
def roomOf (n : Nat) : Nat := max (n - n / 2) (min n 500000)

def sortRuns? (less : α → α → Bool) (sort? : List α → Option (List α)) (n : Nat) :
    List (Run α) → Option (List α)
  | [] => some []
  | first :: behind => do
    let scale := (2 ^ 62 + n - 1) / n
    let joined ← joinRuns? (Run.join? less sort? (roomOf n)) scale [] 0 first behind
    let whole ← joined.settled? sort?
    some whole.items

/-- Sorts runs as they are cut. -/
def eagerSort? (less : α → α → Bool) (items : List α) : Option (List α) := do
  let n := items.length
  let runs := cutRuns less (enoughOf n) blockSize items
  let runs ← runs.mapM (Run.settled? (sortBlock? less))
  sortRuns? less (sortBlock? less) n runs

/-! ## Partition -/

def middleOf (less : α → α → Bool) (a b c : α) : α :=
  if less a b == less a c then
    if less b c ^^ less a b then c else b
  else a

/-- An item from `n` items behind a place, near to their middle in the order. -/
def pivotAt (less : α → α → Bool) (item : Nat → α) (start n : Nat) : α :=
  if 8 ≤ n then
    middleOf less (pivotAt less item start (n / 8))
      (pivotAt less item (start + 4 * (n / 8)) (n / 8))
      (pivotAt less item (start + 7 * (n / 8)) (n / 8))
  else item start
termination_by n
decreasing_by all_goals exact Nat.div_lt_self (by omega) (by decide)

def pivotOf (less : α → α → Bool) (item : α) (items : List α) : α :=
  pivotAt less ((item :: items).getD · item) 0 (items.length + 1)

/-- Sorts by partition, at most `limit` times in a row. `floor` is an earlier pivot that comes
after none of the items; a pivot that does not come after it is as low as an item can be, and so
are the items it does not come before. -/
def partitionSort? (less : α → α → Bool) : Nat → Option α → List α → Option (List α)
  | _, _, [] => some []
  | 0, _, item :: items =>
    if (item :: items).length ≤ blockSize then sortBlock? less (item :: items)
    else eagerSort? less (item :: items)
  | limit + 1, floor, item :: items =>
    let all := item :: items
    if all.length ≤ blockSize then sortBlock? less all
    else
      let pivot := pivotOf less item items
      let low := all.filter (less · pivot)
      if floor.any (!less · pivot) || low.isEmpty then do
        let high ← partitionSort? less limit none (all.filter (less pivot ·))
        some (all.filter (!less pivot ·) ++ high)
      else do
        let high ← partitionSort? less limit (some pivot) (all.filter (!less · pivot))
        let low ← partitionSort? less limit floor low
        some (low ++ high)

/-! ## Any list -/

/-- Sorts runs when they are joined. -/
def lazySort? (less : α → α → Bool) (items : List α) : Option (List α) :=
  let n := items.length
  let sort? (part : List α) := partitionSort? less (2 * part.length.log2) none part
  sortRuns? less sort? n (cutRuns less (enoughOf n) (enoughOf n) items)

/-- A list in order. There is no result if the comparisons are seen to contradict each other. -/
def stableSort? (less : α → α → Bool) (items : List α) : Option (List α) :=
  if items.length ≤ 20 then some (insertAll less [] items)
  else if items.length ≤ 2 * blockSize then eagerSort? less items
  else lazySort? less items

end IndexQuery.Sorting
