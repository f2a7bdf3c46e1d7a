import IndexQuery.Matching.Selection
import IndexQuery.Proofs.Number.Order
import IndexQuery.Proofs.Sorting.Stable
set_option autoImplicit false

/-! # Ranking

Ranking puts the items of a list into another order: it neither adds nor drops any (`ranked_perm`),
and it looks at their distances only (`ranked_map`). If all distances are numbers, there is a
ranking, with the nearest first (`ranked_sorted`). What is not a number is not nearer than anything,
and nothing is nearer than it, so an item with such a distance keeps the items behind it from moving
in front of it, and where there are more than a few items, their comparisons may contradict each
other; this is why the order, and a ranking at all, need the numbers. -/

namespace IndexQuery

namespace Matching

variable {α β : Type} {items sorted : List (Double × α)}

/-- Ranking keeps all items. -/
theorem ranked_perm (h : ranked items = some sorted) : sorted.Perm items :=
  Sorting.stableSort?_perm h

/-- Ranking looks at distances only. -/
theorem ranked_map (g : α → β) (items : List (Double × α)) :
    ranked (items.map (Prod.map id g)) = (ranked items).map (List.map (Prod.map id g)) :=
  Sorting.stableSort?_map (fun _ _ => rfl) items

/-- A few items have a ranking, whatever their distances are. -/
theorem isSome_ranked_of_length_le (h : items.length ≤ 20) : (ranked items).isSome = true := by
  rw [ranked, Sorting.stableSort?_of_length_le nearer h]
  rfl

theorem nearer_eq_byRank {a b : Double × α} (ha : a.1.isNaN = false) (hb : b.1.isNaN = false) :
    nearer a b = decide (a.1.rank < b.1.rank) := by
  rw [nearer, Double.lt, ha, hb]
  rfl

/-- If all distances are numbers, there is a ranking, with the nearest first. -/
theorem ranked_sorted (hitems : ∀ x ∈ items, x.1.isNaN = false) :
    ∃ sorted, ranked items = some sorted ∧ sorted.Pairwise fun a b => a.1.le b.1 := by
  -- among items with numbers, comparisons are those of ranks
  let numbers := items.attachWith (fun x => x.1.isNaN = false) hitems
  have hnumbers : numbers.map Subtype.val = items := List.attachWith_map_subtype_val hitems
  obtain ⟨sorted, hsorted, horder⟩ :=
    Sorting.stableSort?_byRank (fun x : { x : Double × α // x.1.isNaN = false } => x.1.1.rank)
      numbers
  have hranked : ranked items = some (sorted.map Subtype.val) := by
    rw [← hnumbers, ranked, Sorting.stableSort?_map fun a b => nearer_eq_byRank a.2 b.2]
    exact congrArg (Option.map (List.map Subtype.val)) hsorted
  refine ⟨_, hranked, List.pairwise_map.mpr (horder.imp fun {a b} hle => ?_)⟩
  exact Double.le_iff.mpr ⟨a.2, b.2, hle⟩

end Matching

end IndexQuery
