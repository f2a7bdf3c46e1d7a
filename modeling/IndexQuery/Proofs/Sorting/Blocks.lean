import IndexQuery.Sorting.Blocks
import Mathlib.Data.List.Perm.Basic
import Mathlib.Order.Basic
set_option autoImplicit false

/-! # Blocks in order

Whatever the comparison is, sorting keeps the items (`sortBlock?_perm`) and looks at nothing but
comparisons (`sortBlock?_map`). If the comparison is that of ranks, a block has a result, and the
ranks do not fall in it (`sortBlock?_byRank`). The reason is that a draw separates the items: what
is taken from one list would be picked against all that is left of the other one. Two draws that
overlap leave an item untouched in the list they do not overlap in, and then their verdicts on one
pair of items differ. -/

namespace IndexQuery.Sorting

variable {α β : Type}

/-! ## Two ends of a list -/

section

variable {list front behind back before : List α}

/-- What is between two ends that do not overlap. -/
theorem between (hfront : list = front ++ behind) (hback : list.reverse = back ++ before)
    (h : list.length ≤ behind.length + before.length) :
    before.reverse = front ++ behind.take (behind.length + before.length - list.length) ∧
      behind = behind.take (behind.length + before.length - list.length) ++ back.reverse := by
  have hback : list = before.reverse ++ back.reverse := by
    rw [← List.reverse_append, ← hback, List.reverse_reverse]
  have hsplit : ∃ middle, before.reverse = front ++ middle ∧ behind = middle ++ back.reverse := by
    rcases List.append_eq_append_iff.mp (hfront.symm.trans hback) with
      ⟨middle, hbefore, hbehind⟩ | ⟨shared, hshared, hbehind⟩
    · exact ⟨middle, hbefore, hbehind⟩
    · have hlength := congrArg List.length hshared
      have htotal := congrArg List.length hfront
      simp only [List.length_append, List.length_reverse] at hlength htotal
      have hnil : shared = [] := List.eq_nil_of_length_eq_zero (by omega)
      subst hnil
      exact ⟨[], by rw [hshared, List.append_nil, List.append_nil], hbehind.symm⟩
  obtain ⟨middle, hbefore, hbehind⟩ := hsplit
  have hlength : behind.length + before.length - list.length = middle.length := by
    have hrest := congrArg List.length hbehind
    have htotal := congrArg List.length hback
    simp only [List.length_append, List.length_reverse] at hrest htotal
    omega
  rw [hlength, hbehind, List.take_left]
  exact ⟨hbefore, rfl⟩

/-- Ends that are longer than the list share an item. -/
theorem exists_mem_both (hfront : list = front ++ behind) (hback : list.reverse = back ++ before)
    (h : before.length < front.length) : ∃ x, x ∈ front ∧ x ∈ back := by
  have hback : list = before.reverse ++ back.reverse := by
    rw [← List.reverse_append, ← hback, List.reverse_reverse]
  rcases List.append_eq_append_iff.mp (hfront.symm.trans hback) with
    ⟨middle, hbefore, -⟩ | ⟨shared, hshared, hback⟩
  · have hlength := congrArg List.length hbefore
    rw [List.length_append, List.length_reverse] at hlength
    omega
  · cases shared with
    | nil =>
        rw [hshared, List.append_nil, List.length_reverse] at h
        exact absurd h (Nat.lt_irrefl _)
    | cons x shared =>
        refine ⟨x, by simp [hshared], ?_⟩
        rw [← List.mem_reverse, hback]
        simp

/-- Ends that are shorter than the list leave an item out. -/
theorem exists_mem_neither (hfront : list = front ++ behind) (hback : list.reverse = back ++ before)
    (h : back.length < behind.length) : ∃ x, x ∈ behind ∧ x ∈ before := by
  have hfront : list.reverse = behind.reverse ++ front.reverse := by
    rw [hfront, List.reverse_append]
  have hback : list.reverse.reverse = before.reverse ++ back.reverse := by
    rw [hback, List.reverse_append]
  obtain ⟨x, hx, hx'⟩ := exists_mem_both hfront hback (by simpa using h)
  exact ⟨x, List.mem_reverse.mp hx, List.mem_reverse.mp hx'⟩

end

/-! ## The items -/

theorem insertBack_perm (less : α → α → Bool) (item : α) (items : List α) :
    (insertBack less item items).Perm (item :: items) := by
  induction items with
  | nil => exact .refl _
  | cons other rest ih =>
      unfold insertBack
      split
      · exact (ih.cons other).trans (.swap item other rest)
      · exact .refl _

theorem insertAll_perm (less : α → α → Bool) (sorted items : List α) :
    (insertAll less sorted items).Perm (sorted ++ items) := by
  have hfold : ∀ placed : List α,
      (items.foldl (fun placed item => insertBack less item placed) placed).Perm
        (items ++ placed) := by
    induction items with
    | nil => exact fun placed => .refl _
    | cons item items ih =>
        intro placed
        have hinsert : (items ++ insertBack less item placed).Perm (items ++ item :: placed) :=
          (insertBack_perm less item placed).append_left items
        exact (ih _).trans (hinsert.trans List.perm_middle)
  calc (insertAll less sorted items).Perm _ := List.reverse_perm _
    List.Perm _ (items ++ sorted.reverse) := hfold _
    List.Perm _ (items ++ sorted) := (List.reverse_perm sorted).append_left items
    List.Perm _ (sorted ++ items) := List.perm_append_comm

/-- The items `a` and `b` have been drawn from the fronts of both lists. -/
structure Draws (left right : List α) (d : Drawn α) (a b : List α) : Prop where
  left_eq : left = a ++ d.left
  right_eq : right = b ++ d.right
  taken_perm : d.taken.Perm (a ++ b)

/-- What has been taken from one list would be picked against all that is left of the other. -/
structure Separates (pick : α → α → Bool) (d : Drawn α) (a b : List α) : Prop where
  left : ∀ x ∈ a, ∀ r ∈ d.right, pick x r = true
  right : ∀ x ∈ b, ∀ l ∈ d.left, pick l x = false

/-- A choice keeps to an order: it stays the same when the other item is put off. -/
structure KeepsTo (pick : α → α → Bool) (S : α → α → Prop) : Prop where
  left : ∀ {l r r'}, pick l r = true → S r r' → pick l r' = true
  right : ∀ {l l' r}, pick l r = false → S l l' → pick l' r = false

/-- A draw takes items from the fronts, and separates lists that are in order. -/
theorem exists_draws {pick : α → α → Bool} {S : α → α → Prop} (hkeeps : KeepsTo pick S) (n : Nat)
    (left right : List α) :
    ∃ a b, Draws left right (draw pick n left right) a b ∧
      (left.Pairwise S → right.Pairwise S → Separates pick (draw pick n left right) a b) := by
  fun_induction draw pick n left right with
  | case1 left right => exact ⟨[], [], ⟨rfl, rfl, .refl _⟩, fun _ _ => ⟨by simp, by simp⟩⟩
  | case2 n l left r right hpick rest ih =>
      obtain ⟨a, b, hdraws, hseparates⟩ := ih
      refine ⟨l :: a, b, ⟨congrArg (l :: ·) hdraws.left_eq, hdraws.right_eq,
        hdraws.taken_perm.cons l⟩, fun hl hr => ?_⟩
      have ih := hseparates (List.pairwise_cons.mp hl).2 hr
      refine ⟨List.forall_mem_cons.mpr ⟨fun y hy => ?_, ih.left⟩, ih.right⟩
      have hmem : y ∈ r :: right := by
        rw [hdraws.right_eq]
        exact List.mem_append_right b hy
      rcases List.mem_cons.mp hmem with rfl | hmem
      · exact hpick
      · exact hkeeps.left hpick ((List.pairwise_cons.mp hr).1 y hmem)
  | case3 n l left r right hpick rest ih =>
      have hpick : pick l r = false := Bool.eq_false_iff.mpr hpick
      obtain ⟨a, b, hdraws, hseparates⟩ := ih
      refine ⟨a, r :: b, ⟨hdraws.left_eq, congrArg (r :: ·) hdraws.right_eq,
        (hdraws.taken_perm.cons r).trans List.perm_middle.symm⟩, fun hl hr => ?_⟩
      have ih := hseparates hl (List.pairwise_cons.mp hr).2
      refine ⟨ih.left, List.forall_mem_cons.mpr ⟨fun y hy => ?_, ih.right⟩⟩
      have hmem : y ∈ l :: left := by
        rw [hdraws.left_eq]
        exact List.mem_append_right a hy
      rcases List.mem_cons.mp hmem with rfl | hmem
      · exact hpick
      · exact hkeeps.right hpick ((List.pairwise_cons.mp hl).1 y hmem)
  | case4 n right =>
      exact ⟨[], right.take (n + 1), ⟨rfl, (List.take_append_drop _ _).symm, .refl _⟩,
        fun _ _ => ⟨by simp, by simp⟩⟩
  | case5 n left hne =>
      exact ⟨left.take (n + 1), [], ⟨(List.take_append_drop _ _).symm, rfl, by simp⟩,
        fun _ _ => ⟨by simp, by simp⟩⟩

theorem draws (pick : α → α → Bool) (n : Nat) (left right : List α) :
    ∃ a b, Draws left right (draw pick n left right) a b := by
  -- any choice keeps to an order in which nothing is put off
  have hkeeps : KeepsTo pick fun _ _ => False := ⟨fun _ h => h.elim, fun _ h => h.elim⟩
  obtain ⟨a, b, hdraws, -⟩ := exists_draws hkeeps n left right
  exact ⟨a, b, hdraws⟩

theorem mergeEnds?_perm {less : α → α → Bool} {left right merged : List α}
    (h : mergeEnds? less left right = some merged) : merged.Perm (left ++ right) := by
  classical
  unfold mergeEnds? at h
  extract_lets half front back middle at h
  split at h
  · next hfit =>
      obtain ⟨a, b, hfront⟩ : ∃ a b, Draws left right front a b := draws _ half left right
      obtain ⟨c, d, hback⟩ : ∃ c d, Draws left.reverse right.reverse back c d :=
        draws _ half left.reverse right.reverse
      obtain ⟨-, hleft⟩ := between hfront.left_eq hback.left_eq hfit.1
      obtain ⟨-, hright⟩ := between hfront.right_eq hback.right_eq hfit.2
      cases h
      -- the order of the drawn items does not matter here, so counting them is enough
      refine List.perm_iff_count.mpr fun x => ?_
      have hcounts := And.intro (hfront.taken_perm.count_eq x) (hback.taken_perm.count_eq x)
      have hl := congrArg (List.count x) (hfront.left_eq.trans (congrArg (a ++ ·) hleft))
      have hr := congrArg (List.count x) (hfront.right_eq.trans (congrArg (b ++ ·) hright))
      simp only [List.count_append, List.count_reverse, middle] at hcounts hl hr ⊢
      omega
  · cases h

theorem exchanged_perm (less : α → α → Bool) (a b : α) :
    [(exchanged less a b).1, (exchanged less a b).2].Perm [a, b] := by
  unfold exchanged
  split
  · exact .swap a b []
  · exact .refl _

theorem framed_perm (less : α → α → Bool) (first l r last : α) :
    (framed less first l r last).Perm [first, l, r, last] :=
  ((exchanged_perm less l r).append_right [last]).cons first

theorem sortFour_perm (less : α → α → Bool) (items : List α) :
    (sortFour less items).Perm items := by
  classical
  unfold sortFour
  split
  · next v w x y =>
      refine List.perm_iff_count.mpr fun z => ?_
      have hfirst := (exchanged_perm less v w).count_eq z
      have hsecond := (exchanged_perm less x y).count_eq z
      generalize exchanged less v w = first at hfirst ⊢
      generalize exchanged less x y = second at hsecond ⊢
      simp only [List.count_cons, List.count_nil] at hfirst hsecond ⊢
      split <;>
        · rw [(framed_perm less _ _ _ _).count_eq]
          simp only [List.count_cons, List.count_nil]
          omega
  · exact insertAll_perm less [] _

theorem sortEight?_perm {less : α → α → Bool} {items sorted : List α}
    (h : sortEight? less items = some sorted) : sorted.Perm items := by
  have hfirst := sortFour_perm less (items.take 4)
  have hsecond := sortFour_perm less (items.drop 4)
  have hboth := (mergeEnds?_perm h).trans (hfirst.append hsecond)
  rwa [List.take_append_drop] at hboth

theorem sortHalf?_perm {less : α → α → Bool} {n : Nat} {items sorted : List α}
    (h : sortHalf? less n items = some sorted) : sorted.Perm items := by
  unfold sortHalf? at h
  split at h
  · obtain ⟨start, hstart, hsorted⟩ := Option.bind_eq_some_iff.mp h
    cases hsorted
    have hinsert := (insertAll_perm less start (items.drop 8)).trans
      ((sortEight?_perm hstart).append_right _)
    rwa [List.take_append_drop] at hinsert
  · split at h
    · cases h
      have hinsert := (insertAll_perm less _ (items.drop 4)).trans
        ((sortFour_perm less (items.take 4)).append_right _)
      rwa [List.take_append_drop] at hinsert
    · cases h
      exact insertAll_perm less [] items

theorem sortBlock?_perm {less : α → α → Bool} {items sorted : List α}
    (h : sortBlock? less items = some sorted) : sorted.Perm items := by
  unfold sortBlock? at h
  split at h
  · cases h
    exact .refl _
  · obtain ⟨left, hleft, h⟩ := Option.bind_eq_some_iff.mp h
    obtain ⟨right, hright, h⟩ := Option.bind_eq_some_iff.mp h
    have hboth := (mergeEnds?_perm h).trans ((sortHalf?_perm hleft).append (sortHalf?_perm hright))
    rwa [List.take_append_drop] at hboth

/-! ## The order -/

/-- The comparison of ranks. -/
def byRank (rank : α → Int) (a b : α) : Bool := decide (rank a < rank b)

/-- The ranks do not fall. -/
def InOrder (rank : α → Int) (items : List α) : Prop :=
  items.Pairwise fun a b => rank a ≤ rank b

section

variable (rank : α → Int)

@[simp] theorem byRank_eq_true {a b : α} : byRank rank a b = true ↔ rank a < rank b :=
  decide_eq_true_iff

@[simp] theorem byRank_eq_false {a b : α} : byRank rank a b = false ↔ rank b ≤ rank a :=
  decide_eq_false_iff_not.trans Int.not_lt

theorem insertBack_byRank (item : α) {items : List α}
    (h : items.Pairwise fun a b => rank b ≤ rank a) :
    (insertBack (byRank rank) item items).Pairwise fun a b => rank b ≤ rank a := by
  induction items with
  | nil => exact List.pairwise_singleton _ _
  | cons other rest ih =>
      obtain ⟨hother, hrest⟩ := List.pairwise_cons.mp h
      unfold insertBack
      split
      · next hless =>
          have hlt := (byRank_eq_true rank).mp hless
          refine List.pairwise_cons.mpr ⟨fun x hx => ?_, ih hrest⟩
          rcases List.mem_cons.mp ((insertBack_perm _ item rest).mem_iff.mp hx) with rfl | hx
          · exact Int.le_of_lt hlt
          · exact hother x hx
      · next hless =>
          have hle := (byRank_eq_false rank).mp (Bool.eq_false_iff.mpr hless)
          refine List.pairwise_cons.mpr ⟨fun x hx => ?_, h⟩
          rcases List.mem_cons.mp hx with rfl | hx
          · exact hle
          · exact Int.le_trans (hother x hx) hle

theorem insertAll_byRank {sorted : List α} (h : InOrder rank sorted) (items : List α) :
    InOrder rank (insertAll (byRank rank) sorted items) := by
  have hfold : ∀ placed : List α, (placed.Pairwise fun a b => rank b ≤ rank a) →
      (items.foldl (fun placed item => insertBack (byRank rank) item placed) placed).Pairwise
        fun a b => rank b ≤ rank a := by
    induction items with
    | nil => exact fun placed hplaced => hplaced
    | cons item items ih => exact fun placed hplaced => ih _ (insertBack_byRank rank item hplaced)
  exact List.pairwise_reverse.mpr (hfold _ (List.pairwise_reverse.mpr h))

/-- A choice picks by an order. -/
structure PicksBy (pick : α → α → Bool) (S : α → α → Prop) : Prop extends KeepsTo pick S where
  picked : ∀ {l r}, pick l r = true → S l r
  other : ∀ {l r}, pick l r = false → S r l

theorem picksBy_front : PicksBy (fun l r => !byRank rank r l) fun a b => rank a ≤ rank b := by
  refine ⟨⟨?_, ?_⟩, ?_, ?_⟩ <;> simp <;> omega

theorem picksBy_back : PicksBy (fun l r => byRank rank r l) fun a b => rank b ≤ rank a := by
  refine ⟨⟨?_, ?_⟩, ?_, ?_⟩ <;> simp <;> omega

end

section

variable {pick : α → α → Bool} {S : α → α → Prop} {left right : List α}

theorem Draws.mem_or_mem {d : Drawn α} {a b : List α} (h : Draws left right d a b) {x : α}
    (hx : x ∈ d.taken) : x ∈ left ∨ x ∈ right := by
  rw [h.left_eq, h.right_eq]
  rcases List.mem_append.mp (h.taken_perm.mem_iff.mp hx) with hx | hx
  · exact .inl (List.mem_append_left _ hx)
  · exact .inr (List.mem_append_left _ hx)

theorem taken_pairwise (hpicks : PicksBy pick S) (n : Nat) (hl : left.Pairwise S)
    (hr : right.Pairwise S) : (draw pick n left right).taken.Pairwise S := by
  fun_induction draw pick n left right with
  | case1 => exact .nil
  | case2 n l left r right hpick rest ih =>
      obtain ⟨hfirst, hl⟩ := List.pairwise_cons.mp hl
      refine List.pairwise_cons.mpr ⟨fun x hx => ?_, ih hl hr⟩
      obtain ⟨a, b, hdraws⟩ : ∃ a b, Draws left (r :: right) rest a b := draws _ _ _ _
      rcases hdraws.mem_or_mem hx with hx | hx
      · exact hfirst x hx
      · rcases List.mem_cons.mp hx with rfl | hx
        · exact hpicks.picked hpick
        · exact hpicks.picked (hpicks.left hpick ((List.pairwise_cons.mp hr).1 x hx))
  | case3 n l left r right hpick rest ih =>
      have hpick : pick l r = false := Bool.eq_false_iff.mpr hpick
      obtain ⟨hfirst, hr⟩ := List.pairwise_cons.mp hr
      refine List.pairwise_cons.mpr ⟨fun x hx => ?_, ih hl hr⟩
      obtain ⟨a, b, hdraws⟩ : ∃ a b, Draws (l :: left) right rest a b := draws _ _ _ _
      rcases hdraws.mem_or_mem hx with hx | hx
      · rcases List.mem_cons.mp hx with rfl | hx
        · exact hpicks.other hpick
        · exact hpicks.other (hpicks.right hpick ((List.pairwise_cons.mp hl).1 x hx))
      · exact hfirst x hx
  | case4 n right => exact hr.sublist (List.take_sublist _ _)
  | case5 n left hne => exact hl.sublist (List.take_sublist _ _)

/-- What has been taken comes before what is left. -/
theorem taken_before {d : Drawn α} {a b : List α} (hpicks : PicksBy pick S) (hl : left.Pairwise S)
    (hr : right.Pairwise S) (hdraws : Draws left right d a b) (hseparates : Separates pick d a b) :
    ∀ x ∈ d.taken, ∀ y ∈ d.left ++ d.right, S x y := by
  intro x hx y hy
  rw [hdraws.left_eq] at hl
  rw [hdraws.right_eq] at hr
  obtain ⟨-, -, hleft⟩ := List.pairwise_append.mp hl
  obtain ⟨-, -, hright⟩ := List.pairwise_append.mp hr
  rcases List.mem_append.mp (hdraws.taken_perm.mem_iff.mp hx) with hx | hx <;>
    rcases List.mem_append.mp hy with hy | hy
  · exact hleft x hx y hy
  · exact hpicks.picked (hseparates.left x hx y hy)
  · exact hpicks.other (hseparates.right x hx y hy)
  · exact hright x hx y hy

theorem length_taken (pick : α → α → Bool) (n : Nat) (left right : List α) :
    (draw pick n left right).taken.length = min n (left.length + right.length) := by
  fun_induction draw pick n left right with
  | case1 => simp
  | case2 n l left r right hpick rest ih =>
      simp only [List.length_cons, rest] at ih ⊢
      omega
  | case3 n l left r right hpick rest ih =>
      simp only [List.length_cons, rest] at ih ⊢
      omega
  | case4 n right => simp
  | case5 n left hne => simp

end

/-- Draws from both ends that separate the items do not overlap. -/
theorem fits {less : α → α → Bool} {left right a b c d : List α} {front back : Drawn α}
    (hfront : Draws left right front a b) (hback : Draws left.reverse right.reverse back c d)
    (hlength : front.taken.length + back.taken.length ≤ left.length + right.length)
    (ha : Separates (fun l r => !less r l) front a b)
    (hc : Separates (fun l r => less r l) back c d) :
    left.length ≤ front.left.length + back.left.length ∧
      right.length ≤ front.right.length + back.right.length := by
  have hlengths := And.intro hfront.taken_perm.length_eq hback.taken_perm.length_eq
  have hleft := And.intro (congrArg List.length hfront.left_eq)
    (congrArg List.length hback.left_eq)
  have hright := And.intro (congrArg List.length hfront.right_eq)
    (congrArg List.length hback.right_eq)
  simp only [List.length_append, List.length_reverse] at hlengths hleft hright
  -- draws that overlap in one list leave an item of the other one out, and the two disagree on it
  constructor
  · by_contra hover
    obtain ⟨x, hx, hx'⟩ := exists_mem_both hfront.left_eq hback.left_eq (by omega)
    obtain ⟨y, hy, hy'⟩ := exists_mem_neither hfront.right_eq hback.right_eq (by omega)
    have hverdict := ha.left x hx y hy
    rw [hc.left x hx' y hy'] at hverdict
    cases hverdict
  · by_contra hover
    obtain ⟨x, hx, hx'⟩ := exists_mem_both hfront.right_eq hback.right_eq (by omega)
    obtain ⟨y, hy, hy'⟩ := exists_mem_neither hfront.left_eq hback.left_eq (by omega)
    have hverdict := ha.right x hx y hy
    rw [hc.right x hx' y hy'] at hverdict
    cases hverdict

/-- What two draws from both ends leave between them. -/
def untouched (left right : List α) (front back : Drawn α) : List α :=
  front.left.take (front.left.length + back.left.length - left.length) ++
    front.right.take (front.right.length + back.right.length - right.length)

section

variable {left right a b c d : List α} {front back : Drawn α}

theorem mem_of_mem_untouched (hback : Draws left.reverse right.reverse back c d)
    (hfront : Draws left right front a b)
    (hfit : left.length ≤ front.left.length + back.left.length ∧
      right.length ≤ front.right.length + back.right.length)
    {x : α} (hx : x ∈ untouched left right front back) :
    x ∈ front.left ++ front.right ∧ x ∈ back.left ++ back.right := by
  obtain ⟨hleft, -⟩ := between hfront.left_eq hback.left_eq hfit.1
  obtain ⟨hright, -⟩ := between hfront.right_eq hback.right_eq hfit.2
  constructor
  · rcases List.mem_append.mp hx with hx | hx
    · exact List.mem_append_left _ (List.mem_of_mem_take hx)
    · exact List.mem_append_right _ (List.mem_of_mem_take hx)
  · rw [← List.mem_reverse, List.reverse_append, hleft, hright]
    rcases List.mem_append.mp hx with hx | hx <;> simp [hx]

/-- What is drawn from the backs has not been drawn from the fronts. -/
theorem mem_left_of_mem_taken (hback : Draws left.reverse right.reverse back c d)
    (hfront : Draws left right front a b)
    (hfit : left.length ≤ front.left.length + back.left.length ∧
      right.length ≤ front.right.length + back.right.length)
    {x : α} (hx : x ∈ back.taken) : x ∈ front.left ++ front.right := by
  obtain ⟨-, hleft⟩ := between hfront.left_eq hback.left_eq hfit.1
  obtain ⟨-, hright⟩ := between hfront.right_eq hback.right_eq hfit.2
  rw [hleft, hright]
  rcases List.mem_append.mp (hback.taken_perm.mem_iff.mp hx) with hx | hx <;> simp [hx]

theorem length_untouched (hback : Draws left.reverse right.reverse back c d)
    (hfront : Draws left right front a b)
    (hfit : left.length ≤ front.left.length + back.left.length ∧
      right.length ≤ front.right.length + back.right.length) :
    (untouched left right front back).length + front.taken.length + back.taken.length
      = left.length + right.length := by
  obtain ⟨-, hleft⟩ := between hfront.left_eq hback.left_eq hfit.1
  obtain ⟨-, hright⟩ := between hfront.right_eq hback.right_eq hfit.2
  have hends := And.intro (congrArg List.length hleft) (congrArg List.length hright)
  have htaken := And.intro hfront.taken_perm.length_eq hback.taken_perm.length_eq
  have hall := And.intro (congrArg List.length hfront.left_eq)
    (congrArg List.length hfront.right_eq)
  simp only [untouched, List.length_append, List.length_reverse] at hends htaken hall ⊢
  omega

end

theorem pairwise_of_length_le_one {S : α → α → Prop} {items : List α} (h : items.length ≤ 1) :
    items.Pairwise S := by
  match items, h with
  | [], _ => exact .nil
  | [x], _ => exact List.pairwise_singleton _ x

variable (rank : α → Int)

/-- Two lists in order have a merged list, in order. -/
theorem mergeEnds?_byRank {left right : List α} (hl : InOrder rank left) (hr : InOrder rank right) :
    ∃ merged, mergeEnds? (byRank rank) left right = some merged ∧ InOrder rank merged := by
  have hl' : left.reverse.Pairwise fun a b => rank b ≤ rank a := List.pairwise_reverse.mpr hl
  have hr' : right.reverse.Pairwise fun a b => rank b ≤ rank a := List.pairwise_reverse.mpr hr
  unfold mergeEnds?
  extract_lets half front back middle
  obtain ⟨a, b, hfront, ha⟩ : ∃ a b, Draws left right front a b ∧ (_ → _ → Separates _ front a b) :=
    exists_draws (picksBy_front rank).toKeepsTo half left right
  obtain ⟨c, d, hback, hc⟩ : ∃ c d, Draws left.reverse right.reverse back c d ∧
      (_ → _ → Separates _ back c d) :=
    exists_draws (picksBy_back rank).toKeepsTo half left.reverse right.reverse
  have ha := ha hl hr
  have hc := hc hl' hr'
  have hfront_length : front.taken.length = half := by
    rw [length_taken]
    omega
  have hback_length : back.taken.length = half := by
    rw [length_taken, List.length_reverse, List.length_reverse]
    omega
  have hfit := fits hfront hback (by omega) ha hc
  have hlength : middle.length + front.taken.length + back.taken.length
      = left.length + right.length := length_untouched hback hfront hfit
  have hmiddle : ∀ x ∈ middle, x ∈ front.left ++ front.right ∧ x ∈ back.left ++ back.right :=
    fun x hx => mem_of_mem_untouched hback hfront hfit hx
  have hfirst := taken_before (picksBy_front rank) hl hr hfront ha
  have hlast := taken_before (picksBy_back rank) hl' hr' hback hc
  rw [if_pos hfit]
  refine ⟨_, rfl, List.pairwise_append.mpr ⟨List.pairwise_append.mpr
    ⟨taken_pairwise (picksBy_front rank) half hl hr, ?_, fun x hx y hy => ?_⟩, ?_,
    fun x hx y hy => ?_⟩⟩
  · exact pairwise_of_length_le_one (by omega)
  · exact hfirst x hx y (hmiddle y hy).1
  · exact List.pairwise_reverse.mpr (taken_pairwise (picksBy_back rank) half hl' hr')
  · have hy := List.mem_reverse.mp hy
    rcases List.mem_append.mp hx with hx | hx
    · exact hfirst x hx y (mem_left_of_mem_taken hback hfront hfit hy)
    · exact hlast y hy x (hmiddle x hx).2

theorem exchanged_byRank (a b : α) :
    rank (exchanged (byRank rank) a b).1 ≤ rank (exchanged (byRank rank) a b).2 := by
  unfold exchanged
  split
  · next hless => exact Int.le_of_lt ((byRank_eq_true rank).mp hless)
  · next hless => exact (byRank_eq_false rank).mp (Bool.eq_false_iff.mpr hless)

variable {rank} in
theorem framed_byRank {first l r last : α} (hl : rank first ≤ rank l) (hr : rank first ≤ rank r)
    (hl' : rank l ≤ rank last) (hr' : rank r ≤ rank last) :
    InOrder rank (framed (byRank rank) first l r last) := by
  unfold framed exchanged InOrder
  by_cases hless : rank r < rank l
  · simp [byRank, hless]
    omega
  · simp [byRank, hless]
    omega

theorem sortFour_byRank (items : List α) : InOrder rank (sortFour (byRank rank) items) := by
  unfold sortFour
  split
  · next v w x y =>
      have hfirst := exchanged_byRank rank v w
      have hsecond := exchanged_byRank rank x y
      generalize exchanged (byRank rank) v w = first at hfirst ⊢
      generalize exchanged (byRank rank) x y = second at hsecond ⊢
      dsimp only
      split <;> next hca hdb =>
        simp only [byRank_eq_true, byRank_eq_false] at hca hdb
        apply framed_byRank <;> omega
  · exact insertAll_byRank rank .nil _

theorem sortEight?_byRank (items : List α) :
    ∃ sorted, sortEight? (byRank rank) items = some sorted ∧ InOrder rank sorted :=
  mergeEnds?_byRank rank (sortFour_byRank rank _) (sortFour_byRank rank _)

theorem sortHalf?_byRank (n : Nat) (items : List α) :
    ∃ sorted, sortHalf? (byRank rank) n items = some sorted ∧ InOrder rank sorted := by
  unfold sortHalf?
  split
  · obtain ⟨start, hstart, hsorted⟩ := sortEight?_byRank rank (items.take 8)
    rw [hstart]
    exact ⟨_, rfl, insertAll_byRank rank hsorted _⟩
  · split
    · exact ⟨_, rfl, insertAll_byRank rank (sortFour_byRank rank _) _⟩
    · exact ⟨_, rfl, insertAll_byRank rank .nil _⟩

/-- A block has a result, in order. -/
theorem sortBlock?_byRank (items : List α) :
    ∃ sorted, sortBlock? (byRank rank) items = some sorted ∧ InOrder rank sorted := by
  unfold sortBlock?
  split
  · next hlength =>
      exact ⟨items, rfl, pairwise_of_length_le_one (Nat.le_of_lt_succ hlength)⟩
  · obtain ⟨left, hleft, hl⟩ := sortHalf?_byRank rank items.length (items.take (items.length / 2))
    obtain ⟨right, hright, hr⟩ :=
      sortHalf?_byRank rank items.length (items.drop (items.length / 2))
    simp only [hleft, hright, Option.bind_eq_bind, Option.bind_some]
    exact mergeEnds?_byRank rank hl hr

/-! ## Other items -/

section

variable {less : β → β → Bool} {less' : α → α → Bool} {f : α → β}

theorem insertBack_map (h : ∀ x y, less (f x) (f y) = less' x y) (item : α) (items : List α) :
    insertBack less (f item) (items.map f) = (insertBack less' item items).map f := by
  induction items with
  | nil => rfl
  | cons other rest ih =>
      rw [List.map_cons, insertBack, insertBack, h, ih]
      split <;> rfl

theorem insertAll_map (h : ∀ x y, less (f x) (f y) = less' x y) (sorted items : List α) :
    insertAll less (sorted.map f) (items.map f) = (insertAll less' sorted items).map f := by
  have hfold : ∀ placed : List α,
      (items.map f).foldl (fun placed item => insertBack less item placed) (placed.map f)
        = (items.foldl (fun placed item => insertBack less' item placed) placed).map f := by
    induction items with
    | nil => exact fun placed => rfl
    | cons item items ih =>
        intro placed
        rw [List.map_cons, List.foldl_cons, List.foldl_cons, insertBack_map h, ih]
  rw [insertAll, insertAll, ← List.map_reverse, hfold, List.map_reverse]

/-- The same draw of other items. -/
def Drawn.map (f : α → β) (d : Drawn α) : Drawn β :=
  ⟨d.taken.map f, d.left.map f, d.right.map f⟩

theorem draw_map {pick : β → β → Bool} {pick' : α → α → Bool}
    (h : ∀ x y, pick (f x) (f y) = pick' x y) (n : Nat) (left right : List α) :
    draw pick n (left.map f) (right.map f) = (draw pick' n left right).map f := by
  fun_induction draw pick' n left right with
  | case1 => rfl
  | case2 n l left r right hpick rest ih =>
      rw [List.map_cons, List.map_cons, draw, h, if_pos hpick, ← List.map_cons, ih]
      rfl
  | case3 n l left r right hpick rest ih =>
      rw [List.map_cons, List.map_cons, draw, h, if_neg hpick, ← List.map_cons, ih]
      rfl
  | case4 n right =>
      rw [List.map_nil, draw, ← List.map_take, ← List.map_drop]
      rfl
  | case5 n left hne =>
      rw [List.map_nil, draw, ← List.map_take, ← List.map_drop]
      · rfl
      · exact fun hnil => hne (List.map_eq_nil_iff.mp hnil)

theorem front_map (h : ∀ x y, less (f x) (f y) = less' x y) (n : Nat) (left right : List α) :
    draw (fun l r => !less r l) n (left.map f) (right.map f)
      = (draw (fun l r => !less' r l) n left right).map f :=
  draw_map (fun x y => congrArg (!·) (h y x)) n left right

theorem back_map (h : ∀ x y, less (f x) (f y) = less' x y) (n : Nat) (left right : List α) :
    draw (fun l r => less r l) n (left.map f).reverse (right.map f).reverse
      = (draw (fun l r => less' r l) n left.reverse right.reverse).map f := by
  rw [← List.map_reverse, ← List.map_reverse]
  exact draw_map (fun x y => h y x) n left.reverse right.reverse

theorem mergeEnds?_map (h : ∀ x y, less (f x) (f y) = less' x y) (left right : List α) :
    mergeEnds? less (left.map f) (right.map f)
      = (mergeEnds? less' left right).map (List.map f) := by
  unfold mergeEnds?
  simp only [front_map h, back_map h, Drawn.map, List.length_map]
  split
  · simp
  · rfl

theorem exchanged_map (h : ∀ x y, less (f x) (f y) = less' x y) (a b : α) :
    exchanged less (f a) (f b) = (exchanged less' a b).map f f := by
  unfold exchanged
  rw [h]
  split <;> rfl

theorem framed_map (h : ∀ x y, less (f x) (f y) = less' x y) (first l r last : α) :
    framed less (f first) (f l) (f r) (f last) = (framed less' first l r last).map f := by
  unfold framed
  rw [exchanged_map h]
  rfl

theorem sortFour_map (h : ∀ x y, less (f x) (f y) = less' x y) (items : List α) :
    sortFour less (items.map f) = (sortFour less' items).map f := by
  match items with
  | [v, w, x, y] =>
      simp only [List.map_cons, List.map_nil, sortFour, exchanged_map h, Prod.map, h, framed_map h]
      split <;> rfl
  | [] => rfl
  | [v] => exact insertAll_map h [] [v]
  | [v, w] => exact insertAll_map h [] [v, w]
  | [v, w, x] => exact insertAll_map h [] [v, w, x]
  | v :: w :: x :: y :: z :: rest => exact insertAll_map h [] (v :: w :: x :: y :: z :: rest)

theorem sortEight?_map (h : ∀ x y, less (f x) (f y) = less' x y) (items : List α) :
    sortEight? less (items.map f) = (sortEight? less' items).map (List.map f) := by
  rw [sortEight?, ← List.map_take, ← List.map_drop, sortFour_map h, sortFour_map h,
    mergeEnds?_map h]
  rfl

theorem sortHalf?_map (h : ∀ x y, less (f x) (f y) = less' x y) (n : Nat) (items : List α) :
    sortHalf? less n (items.map f) = (sortHalf? less' n items).map (List.map f) := by
  unfold sortHalf?
  simp only [← List.map_take, ← List.map_drop, sortEight?_map h, sortFour_map h]
  split
  · cases sortEight? less' (items.take 8) with
    | none => rfl
    | some start => exact congrArg some (insertAll_map h start _)
  · split
    · exact congrArg some (insertAll_map h _ _)
    · exact congrArg some (insertAll_map h [] items)

/-- Sorting a block looks at comparisons only. -/
theorem sortBlock?_map (h : ∀ x y, less (f x) (f y) = less' x y) (items : List α) :
    sortBlock? less (items.map f) = (sortBlock? less' items).map (List.map f) := by
  unfold sortBlock?
  simp only [List.length_map, ← List.map_take, ← List.map_drop, sortHalf?_map h]
  split
  · rfl
  · cases sortHalf? less' items.length (items.take (items.length / 2)) with
    | none => rfl
    | some left =>
        cases sortHalf? less' items.length (items.drop (items.length / 2)) with
        | none => rfl
        | some right => exact mergeEnds?_map h left right

end

end IndexQuery.Sorting
