import IndexQuery.Proofs.Sorting.Runs
import IndexQuery.Sorting.Stable
set_option autoImplicit false

/-! # Stable sorting

Sorting keeps the items (`stableSort?_perm`), has a result for every list of up to 20 items
(`stableSort?_of_length_le`), and under the comparison of ranks it has one for every list, in which
the ranks do not fall (`stableSort?_byRank`). -/

namespace IndexQuery.Sorting

variable {α β : Type}

/-! ## The items -/

section

variable {less : α → α → Bool} {sort? : List α → Option (List α)}

theorem mapM_settled?_perm (hsort : KeepsItems sort?) {runs settled : List (Run α)}
    (h : runs.mapM (Run.settled? sort?) = some settled) :
    (settled.flatMap Run.items).Perm (runs.flatMap Run.items) := by
  induction runs generalizing settled with
  | nil =>
      cases h
      exact .refl _
  | cons run runs ih =>
      rw [List.mapM_cons] at h
      obtain ⟨first, hfirst, h⟩ := Option.bind_eq_some_iff.mp h
      obtain ⟨rest, hrest, h⟩ := Option.bind_eq_some_iff.mp h
      cases h
      exact (Run.settled?_perm hsort hfirst).append (ih hrest)

theorem sortRuns?_perm (hsort : KeepsItems sort?) {n : Nat} {runs : List (Run α)} {sorted : List α}
    (h : sortRuns? less sort? n runs = some sorted) : sorted.Perm (runs.flatMap Run.items) := by
  cases runs with
  | nil =>
      cases h
      exact .refl _
  | cons first behind =>
      obtain ⟨joined, hjoined, h⟩ := Option.bind_eq_some_iff.mp h
      obtain ⟨whole, hwhole, h⟩ := Option.bind_eq_some_iff.mp h
      cases h
      have hitems := joinRuns?_perm (fun _ _ _ => Run.join?_perm hsort) hjoined
      exact (Run.settled?_perm hsort hwhole).trans hitems

theorem keepsItems_eagerSort? (less : α → α → Bool) : KeepsItems (eagerSort? less) := by
  intro items sorted h
  obtain ⟨runs, hruns, h⟩ := Option.bind_eq_some_iff.mp h
  have hblock : KeepsItems (sortBlock? less) := fun _ _ => sortBlock?_perm
  exact (sortRuns?_perm hblock h).trans
    ((mapM_settled?_perm hblock hruns).trans (cutRuns_perm less _ _ items))

theorem keepsItems_partitionSort? (less : α → α → Bool) (limit : Nat) (floor : Option α) :
    KeepsItems (partitionSort? less limit floor) := by
  intro items sorted h
  fun_induction partitionSort? less limit floor items generalizing sorted with
  | case1 =>
      cases h
      exact .refl _
  | case2 floor item items hlength => exact sortBlock?_perm h
  | case3 floor item items hlength => exact keepsItems_eagerSort? less _ _ h
  | case4 limit floor item items all hlength => exact sortBlock?_perm h
  | case5 limit floor item items all hlength pivot low hlow ih =>
      obtain ⟨high, hhigh, h⟩ := Option.bind_eq_some_iff.mp h
      cases h
      have hparts := List.filter_append_perm (less pivot ·) all
      exact ((ih _ hhigh).append_left _).trans (List.perm_append_comm.trans hparts)
  | case6 limit floor item items all hlength pivot low hlow ih ih' =>
      obtain ⟨high, hhigh, h⟩ := Option.bind_eq_some_iff.mp h
      obtain ⟨low', hlow', h⟩ := Option.bind_eq_some_iff.mp h
      cases h
      have hparts := List.filter_append_perm (less · pivot) all
      exact ((ih' _ hlow').append (ih _ hhigh)).trans hparts

/-- Sorting keeps the items. -/
theorem stableSort?_perm {items sorted : List α} (h : stableSort? less items = some sorted) :
    sorted.Perm items := by
  unfold stableSort? at h
  split at h
  · cases h
    exact insertAll_perm less [] items
  · split at h
    · exact keepsItems_eagerSort? less items sorted h
    · have hpartition : KeepsItems fun part : List α =>
          partitionSort? less (2 * part.length.log2) none part := fun part =>
        keepsItems_partitionSort? less _ none part
      exact (sortRuns?_perm hpartition h).trans (cutRuns_perm less _ _ items)

/-- Few items always have a result. -/
theorem stableSort?_of_length_le (less : α → α → Bool) {items : List α}
    (h : items.length ≤ 20) : stableSort? less items = some (insertAll less [] items) :=
  if_pos h

/-- Sorting is given up with the first block, if the list does not begin with a long run. -/
theorem stableSort?_eq_none {items : List α} (hmany : 20 < items.length)
    (hsmall : items.length ≤ 2 * blockSize)
    (hrun : (leadingRun less items).1.length < enoughOf items.length)
    (hblock : sortBlock? less (items.take blockSize) = none) : stableSort? less items = none := by
  cases items with
  | nil => cases hmany
  | cons item items =>
      have hfirst : (firstRun less (enoughOf (item :: items).length) blockSize item items).1
          = ⟨(item :: items).take blockSize, false⟩ := by
        rw [firstRun]
        dsimp only
        rw [if_neg (Nat.not_le.mpr hrun)]
        rfl
      have hsettled : Run.settled? (sortBlock? less) ⟨(item :: items).take blockSize, false⟩
          = none := by
        rw [Run.settled?, hblock]
        rfl
      rw [stableSort?, if_neg (Nat.not_le.mpr hmany), if_pos hsmall, eagerSort?, cutRuns,
        List.mapM_cons, hfirst, hsettled]
      rfl

end

/-! ## The order -/

section

variable {rank : α → Int} {sort? : List α → Option (List α)}

theorem mapM_settled?_sound (hsort : Sorts rank sort?) {runs : List (Run α)}
    (hruns : ∀ run ∈ runs, run.Sound rank) :
    ∃ settled, runs.mapM (Run.settled? sort?) = some settled ∧
      ∀ run ∈ settled, run.Sound rank := by
  induction runs with
  | nil => exact ⟨[], rfl, by simp⟩
  | cons run runs ih =>
      obtain ⟨hrun, hruns⟩ := List.forall_mem_cons.mp hruns
      obtain ⟨first, hfirst, horder⟩ := Run.settled?_sound hsort hrun
      obtain ⟨rest, hrest, hsound⟩ := ih hruns
      rw [List.mapM_cons, hfirst, hrest]
      exact ⟨_, rfl, List.forall_mem_cons.mpr ⟨fun _ => horder, hsound⟩⟩

theorem sortRuns?_sound (hsort : Sorts rank sort?) (n : Nat) {runs : List (Run α)}
    (hruns : ∀ run ∈ runs, run.Sound rank) :
    ∃ sorted, sortRuns? (byRank rank) sort? n runs = some sorted ∧ InOrder rank sorted := by
  cases runs with
  | nil => exact ⟨[], rfl, .nil⟩
  | cons first behind =>
      obtain ⟨hfirst, hbehind⟩ := List.forall_mem_cons.mp hruns
      obtain ⟨joined, hjoined, hsound⟩ := joinRuns?_sound
        (fun _ _ => Run.join?_sound hsort (roomOf n)) ((2 ^ 62 + n - 1) / n) 0
        (List.forall_mem_nil _) hfirst hbehind
      obtain ⟨whole, hwhole, horder⟩ := Run.settled?_sound hsort hsound
      rw [sortRuns?]
      simp only [hjoined, Option.bind_eq_bind, Option.bind_some, hwhole]
      exact ⟨_, rfl, horder⟩

theorem sorts_eagerSort? (rank : α → Int) : Sorts rank (eagerSort? (byRank rank)) := by
  intro items
  have hblock : Sorts rank (sortBlock? (byRank rank)) := sortBlock?_byRank rank
  obtain ⟨runs, hruns, hsound⟩ :=
    mapM_settled?_sound hblock (cutRuns_sound rank (enoughOf items.length) blockSize items)
  unfold eagerSort?
  simp only [hruns, Option.bind_eq_bind, Option.bind_some]
  exact sortRuns?_sound hblock items.length hsound

/-- Two sorted parts, the first one below the second one. -/
theorem inOrder_append {low high : List α} (pivot : α) (hlow : InOrder rank low)
    (hhigh : InOrder rank high) (hbelow : ∀ x ∈ low, rank x ≤ rank pivot)
    (habove : ∀ x ∈ high, rank pivot ≤ rank x) :
    InOrder rank (low ++ high) :=
  List.pairwise_append.mpr ⟨hlow, hhigh, fun x hx y hy =>
    Int.le_trans (hbelow x hx) (habove y hy)⟩

/-- A pivot that is not above the floor, or that no item is below, is not above any item. -/
theorem lowest {floor : Option α} {pivot : α} {items : List α}
    (h : (floor.any (!byRank rank · pivot) || (items.filter (byRank rank · pivot)).isEmpty) = true)
    (hfloor : ∀ bound ∈ floor, ∀ x ∈ items, rank bound ≤ rank x) :
    ∀ x ∈ items, rank pivot ≤ rank x := by
  intro x hx
  rcases Bool.or_eq_true_iff.mp h with h | h
  · cases floor with
    | none => cases h
    | some bound =>
        have hpivot : rank pivot ≤ rank bound := by simpa using h
        exact Int.le_trans hpivot (hfloor bound rfl x hx)
  · have hnone := List.filter_eq_nil_iff.mp (List.isEmpty_iff.mp h) x hx
    exact (byRank_eq_false rank).mp (Bool.eq_false_iff.mpr hnone)

/-- Sorting by partition, given that all items are at least as high as the floor. -/
theorem partitionSort?_byRank (limit : Nat) (floor : Option α) (items : List α)
    (hfloor : ∀ bound ∈ floor, ∀ x ∈ items, rank bound ≤ rank x) :
    ∃ sorted, partitionSort? (byRank rank) limit floor items = some sorted ∧
      InOrder rank sorted := by
  fun_induction partitionSort? (byRank rank) limit floor items with
  | case1 => exact ⟨[], rfl, .nil⟩
  | case2 floor item items hlength => exact sortBlock?_byRank rank _
  | case3 floor item items hlength => exact sorts_eagerSort? rank _
  | case4 limit floor item items all hlength => exact sortBlock?_byRank rank _
  | case5 limit floor item items all hlength pivot low hlow ih =>
      obtain ⟨high, hhigh, horder⟩ := ih (by simp)
      have hperm := keepsItems_partitionSort? _ _ _ _ _ hhigh
      rw [hhigh]
      -- no item is below the pivot, so those that are not above it are its equals
      refine ⟨_, rfl, inOrder_append pivot ?_ horder (fun x hx => ?_) fun x hx => ?_⟩
      · refine List.pairwise_of_forall_mem_list fun x hx y hy => ?_
        have hx := (List.mem_filter.mp hx).2
        have hy := lowest hlow hfloor y (List.mem_filter.mp hy).1
        simp only [Bool.not_eq_true', byRank_eq_false] at hx
        exact Int.le_trans hx hy
      · simpa using (List.mem_filter.mp hx).2
      · have hx := (List.mem_filter.mp (hperm.mem_iff.mp hx)).2
        exact Int.le_of_lt ((byRank_eq_true rank).mp hx)
  | case6 limit floor item items all hlength pivot low hlow ih ih' =>
      have habove : ∀ x ∈ all.filter (!byRank rank · pivot), rank pivot ≤ rank x := fun x hx => by
        simpa using (List.mem_filter.mp hx).2
      have hbelow : ∀ x ∈ low, rank x ≤ rank pivot := fun x hx =>
        Int.le_of_lt ((byRank_eq_true rank).mp (List.mem_filter.mp hx).2)
      -- the pivot is the floor of the upper part, and the lower part keeps the floor it had
      obtain ⟨high', hhigh, horder⟩ := ih fun bound hbound => by
        cases hbound
        exact habove
      obtain ⟨low', hlow', horder'⟩ := ih' fun bound hbound x hx =>
        hfloor bound hbound x (List.mem_filter.mp hx).1
      have hperm := keepsItems_partitionSort? _ _ _ _ _ hhigh
      have hperm' := keepsItems_partitionSort? _ _ _ _ _ hlow'
      simp only [hhigh, hlow', Option.bind_eq_bind, Option.bind_some]
      exact ⟨_, rfl, inOrder_append pivot horder' horder
        (fun x hx => hbelow x (hperm'.mem_iff.mp hx))
        fun x hx => habove x (hperm.mem_iff.mp hx)⟩

/-- Ranks have a sorted list. -/
theorem stableSort?_byRank (rank : α → Int) (items : List α) :
    ∃ sorted, stableSort? (byRank rank) items = some sorted ∧ InOrder rank sorted := by
  unfold stableSort?
  split
  · exact ⟨_, rfl, insertAll_byRank rank .nil items⟩
  · split
    · exact sorts_eagerSort? rank items
    · have hpartition : Sorts rank fun part : List α =>
          partitionSort? (byRank rank) (2 * part.length.log2) none part := fun part =>
        partitionSort?_byRank _ none part (by simp)
      exact sortRuns?_sound hpartition items.length (cutRuns_sound rank _ _ items)

end

/-! ## Other items -/

section

variable {less : β → β → Bool} {less' : α → α → Bool} {f : α → β}
  {sort? : List β → Option (List β)} {sort?' : List α → Option (List α)}

theorem mapM_settled?_map
    (hsort : ∀ items, sort? (items.map f) = (sort?' items).map (List.map f))
    (runs : List (Run α)) :
    (runs.map (Run.map f)).mapM (Run.settled? sort?)
      = (runs.mapM (Run.settled? sort?')).map (List.map (Run.map f)) := by
  induction runs with
  | nil => rfl
  | cons run runs ih =>
      rw [List.map_cons, List.mapM_cons, List.mapM_cons, ih, Run.settled?_map hsort]
      cases run.settled? sort?' with
      | none => rfl
      | some settled => cases runs.mapM (Run.settled? sort?') <;> rfl

theorem sortRuns?_map (h : ∀ x y, less (f x) (f y) = less' x y)
    (hsort : ∀ items, sort? (items.map f) = (sort?' items).map (List.map f)) (n : Nat)
    (runs : List (Run α)) :
    sortRuns? less sort? n (runs.map (Run.map f))
      = (sortRuns? less' sort?' n runs).map (List.map f) := by
  cases runs with
  | nil => rfl
  | cons first behind =>
      have hjoined := joinRuns?_map (Run.join?_map h hsort (roomOf n)) ((2 ^ 62 + n - 1) / n) 0 []
        first behind
      rw [show mapWaiting f ([] : List (Run α × Nat)) = [] from rfl] at hjoined
      rw [List.map_cons, sortRuns?, sortRuns?, hjoined]
      cases joinRuns? (Run.join? less' sort?' (roomOf n)) ((2 ^ 62 + n - 1) / n) [] 0 first
          behind with
      | none => rfl
      | some joined =>
        simp only [Option.map_some, Option.bind_eq_bind, Option.bind_some, Run.settled?_map hsort]
        cases joined.settled? sort?' <;> rfl

theorem eagerSort?_map (h : ∀ x y, less (f x) (f y) = less' x y) (items : List α) :
    eagerSort? less (items.map f) = (eagerSort? less' items).map (List.map f) := by
  have hblock := sortBlock?_map h
  unfold eagerSort?
  simp only [List.length_map, cutRuns_map h, mapM_settled?_map hblock]
  cases (cutRuns less' (enoughOf items.length) blockSize items).mapM
      (Run.settled? (sortBlock? less')) with
  | none => rfl
  | some runs => exact sortRuns?_map h hblock _ runs

theorem middleOf_map (h : ∀ x y, less (f x) (f y) = less' x y) (a b c : α) :
    middleOf less (f a) (f b) (f c) = f (middleOf less' a b c) := by
  unfold middleOf
  simp only [h]
  split
  · split <;> rfl
  · rfl

theorem pivotAt_map (h : ∀ x y, less (f x) (f y) = less' x y) (item : Nat → α) (start n : Nat) :
    pivotAt less (fun i => f (item i)) start n = f (pivotAt less' item start n) := by
  fun_induction pivotAt less' item start n with
  | case1 start n hn ih₁ ih₂ ih₃ =>
      rw [pivotAt, if_pos hn, ih₁, ih₂, ih₃, middleOf_map h]
  | case2 start n hn => rw [pivotAt, if_neg hn]

theorem pivotOf_map (h : ∀ x y, less (f x) (f y) = less' x y) (item : α) (items : List α) :
    pivotOf less (f item) (items.map f) = f (pivotOf less' item items) := by
  have hget : ∀ i, ((item :: items).map f).getD i (f item) = f ((item :: items).getD i item) :=
    fun i => by
      rw [List.getD_eq_getElem?_getD, List.getD_eq_getElem?_getD, List.getElem?_map,
        Option.getD_map]
  rw [pivotOf, pivotOf, ← pivotAt_map h, List.length_map]
  exact congrArg (pivotAt less · 0 (items.length + 1)) (funext hget)

theorem partitionSort?_map (h : ∀ x y, less (f x) (f y) = less' x y) (limit : Nat)
    (floor : Option α) (items : List α) :
    partitionSort? less limit (floor.map f) (items.map f)
      = (partitionSort? less' limit floor items).map (List.map f) := by
  fun_induction partitionSort? less' limit floor items with
  | case1 limit floor => cases limit <;> rfl
  | case2 floor item items hlength =>
      rw [List.map_cons, partitionSort?, ← List.map_cons, List.length_map, if_pos hlength]
      exact sortBlock?_map h _
  | case3 floor item items hlength =>
      rw [List.map_cons, partitionSort?, ← List.map_cons, List.length_map, if_neg hlength]
      exact eagerSort?_map h _
  | case4 limit floor item items all hlength =>
      rw [List.map_cons, partitionSort?, ← List.map_cons, List.length_map, if_pos hlength]
      exact sortBlock?_map h _
  | case5 limit floor item items all hlength pivot low hlow ih =>
      rw [List.map_cons, partitionSort?, ← List.map_cons, List.length_map, if_neg hlength]
      simp only [pivotOf_map h, List.filter_map, Function.comp_def, h, Option.any_map,
        List.isEmpty_map]
      rw [if_pos hlow, ← Option.map_none f, ih]
      cases partitionSort? less' limit none (all.filter (less' pivot ·)) with
      | none => rfl
      | some high => exact congrArg some List.map_append.symm
  | case6 limit floor item items all hlength pivot low hlow ih ih' =>
      rw [List.map_cons, partitionSort?, ← List.map_cons, List.length_map, if_neg hlength]
      simp only [pivotOf_map h, List.filter_map, Function.comp_def, h, Option.any_map,
        List.isEmpty_map]
      rw [if_neg hlow, ← Option.map_some, ih, ih']
      cases partitionSort? less' limit (some pivot) (all.filter (!less' · pivot)) with
      | none => rfl
      | some high =>
          cases partitionSort? less' limit floor low with
          | none => rfl
          | some low' => exact congrArg some List.map_append.symm

/-- Sorting looks at comparisons only. -/
theorem stableSort?_map (h : ∀ x y, less (f x) (f y) = less' x y) (items : List α) :
    stableSort? less (items.map f) = (stableSort? less' items).map (List.map f) := by
  unfold stableSort?
  rw [List.length_map]
  split
  · exact congrArg some (insertAll_map h [] items)
  · split
    · exact eagerSort?_map h items
    · unfold lazySort?
      simp only [List.length_map, cutRuns_map h]
      refine sortRuns?_map h (fun part => ?_) _ _
      rw [List.length_map]
      exact partitionSort?_map h _ none part

end

end IndexQuery.Sorting
