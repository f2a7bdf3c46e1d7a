import IndexQuery.Sorting.Blocks
set_option autoImplicit false

/-! # Sorting by runs

A longer list is cut into runs: stretches that are in order already, either way round, as far as
they are long enough, and stretches of a fixed length otherwise. Neighbouring runs are then joined
in pairs. Each place where two runs meet has a depth in the tree of joins, and runs that meet at a
deeper place are joined first. -/

namespace IndexQuery.Sorting

variable {α : Type}

/-! ## Cutting -/

/-- Items side by side, and whether they are known to be in order. -/
structure Run (α : Type) where
  items : List α
  inOrder : Bool

/-- The longest start of a list in which each item steps to the next, and what is behind it. -/
def chain (step : α → α → Bool) : List α → List α × List α
  | x :: y :: rest =>
    if step x y then
      let (start, behind) := chain step (y :: rest)
      (x :: start, behind)
    else ([x], y :: rest)
  | items => (items, [])

/-- The longest start of a list that falls or does not fall, in order, and what is behind it. -/
def leadingRun (less : α → α → Bool) : List α → List α × List α
  | x :: y :: rest =>
    if less y x then
      let (start, behind) := chain (fun a b => less b a) (x :: y :: rest)
      (start.reverse, behind)
    else chain (fun a b => !less b a) (x :: y :: rest)
  | items => (items, [])

/-- The first run of `item :: items`: a start in order of at least `enough` items, or else up to
`size` items as they are. -/
def firstRun (less : α → α → Bool) (enough size : Nat) (item : α) (items : List α) :
    Run α × List α :=
  let (start, behind) := leadingRun less (item :: items)
  if enough ≤ start.length then (⟨start, true⟩, behind)
  else (⟨item :: items.take (size - 1), false⟩, items.drop (size - 1))

theorem length_chain_le (step : α → α → Bool) (x : α) (rest : List α) :
    (chain step (x :: rest)).2.length ≤ rest.length := by
  induction rest generalizing x with
  | nil => exact Nat.le_refl 0
  | cons y rest ih =>
      rw [chain]
      split
      · exact Nat.le_succ_of_le (ih y)
      · exact Nat.le_refl _

theorem length_leadingRun_le (less : α → α → Bool) (x : α) (rest : List α) :
    (leadingRun less (x :: rest)).2.length ≤ rest.length := by
  cases rest with
  | nil => exact Nat.le_refl 0
  | cons y rest =>
      rw [leadingRun]
      split <;> exact length_chain_le _ x (y :: rest)

theorem length_firstRun_le (less : α → α → Bool) (enough size : Nat) (item : α) (items : List α) :
    (firstRun less enough size item items).2.length ≤ items.length := by
  unfold firstRun
  dsimp only
  split
  · exact length_leadingRun_le less item items
  · exact (List.drop_sublist _ items).length_le

def cutRuns (less : α → α → Bool) (enough size : Nat) : List α → List (Run α)
  | [] => []
  | item :: items =>
    let first := firstRun less enough size item items
    first.1 :: cutRuns less enough size first.2
termination_by items => items.length
decreasing_by exact Nat.lt_succ_of_le (length_firstRun_le less enough size item items)

/-! ## Joining -/

/-- Two sorted lists as one, from the front or from the back, depending on which one is shorter. -/
def mergeRuns (less : α → α → Bool) (left right : List α) : List α :=
  let all := left.length + right.length
  if left.length ≤ right.length then (draw (fun l r => !less r l) all left right).taken
  else (draw (fun l r => less r l) all left.reverse right.reverse).taken.reverse

/-- A run in order, sorted if need be. -/
def Run.settled? (sort? : List α → Option (List α)) (run : Run α) : Option (Run α) :=
  if run.inOrder then some run
  else do
    let items ← sort? run.items
    some ⟨items, true⟩

/-- Two neighbouring runs as one. Runs that are not in order stay so while both fit into `room`. -/
def Run.join? (less : α → α → Bool) (sort? : List α → Option (List α)) (room : Nat)
    (left right : Run α) : Option (Run α) :=
  if left.items.length + right.items.length ≤ room && !left.inOrder && !right.inOrder then
    some ⟨left.items ++ right.items, false⟩
  else do
    let left ← left.settled? sort?
    let right ← right.settled? sort?
    some ⟨mergeRuns less left.items right.items, true⟩

/-- The depth of the place `middle` where two runs meet: the number of leading binary digits that
the middles of both runs share, as 64-bit fractions of the whole. -/
def joinDepth (scale start middle stop : Nat) : Nat :=
  let left := BitVec.ofNat 64 (scale * (start + middle))
  let right := BitVec.ofNat 64 (scale * (middle + stop))
  (left ^^^ right).clz.toNat

/-- Joins a run to the runs that wait in front of it, as far as they meet at the depth or deeper. -/
def joinWaiting? (join? : Run α → Run α → Option (Run α)) (depth : Nat) :
    List (Run α × Nat) → Run α → Option (List (Run α × Nat) × Run α)
  | [], run => some ([], run)
  | (left, due) :: waiting, run =>
    if depth ≤ due then do
      let run ← join? left run
      joinWaiting? join? depth waiting run
    else some ((left, due) :: waiting, run)

/-- Joins a run, which begins at `start`, to those that wait in front of it and those behind it. -/
def joinRuns? (join? : Run α → Run α → Option (Run α)) (scale : Nat) :
    List (Run α × Nat) → Nat → Run α → List (Run α) → Option (Run α)
  | waiting, _, run, [] => do
    let (_, whole) ← joinWaiting? join? 0 waiting run
    some whole
  | waiting, start, run, next :: behind => do
    let middle := start + run.items.length
    let depth := joinDepth scale start middle (middle + next.items.length)
    let (waiting, joined) ← joinWaiting? join? depth waiting run
    joinRuns? join? scale ((joined, depth) :: waiting) middle next behind

end IndexQuery.Sorting
