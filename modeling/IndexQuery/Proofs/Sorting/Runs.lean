import IndexQuery.Proofs.Sorting.Blocks
import IndexQuery.Sorting.Runs
import Mathlib.Data.List.Chain
set_option autoImplicit false

/-! # Runs in order

Cutting a list into runs and joining them keeps the items (`cutRuns_perm`, `joinRuns?_perm`). Under
the comparison of ranks the runs that are marked as being in order are so (`Run.Sound`), whatever
the depths are at which they are joined (`joinRuns?_sound`). -/

namespace IndexQuery.Sorting

variable {α β : Type}

/-! ## The items -/

theorem chain_append (step : α → α → Bool) (items : List α) :
    (chain step items).1 ++ (chain step items).2 = items := by
  fun_induction chain step items with
  | case1 x y rest hstep start behind hchain ih =>
      rw [hchain] at ih
      exact congrArg (x :: ·) ih
  | case2 x y rest hstep => rfl
  | case3 items => exact List.append_nil items

theorem leadingRun_perm (less : α → α → Bool) (items : List α) :
    ((leadingRun less items).1 ++ (leadingRun less items).2).Perm items := by
  unfold leadingRun
  split
  · next x y rest =>
      split
      · have happend := chain_append (fun a b => less b a) (x :: y :: rest)
        exact ((List.reverse_perm _).append_right _).trans (.of_eq happend)
      · exact .of_eq (chain_append _ (x :: y :: rest))
  · exact .of_eq (List.append_nil _)

theorem firstRun_perm (less : α → α → Bool) (enough size : Nat) (item : α) (items : List α) :
    ((firstRun less enough size item items).1.items ++
      (firstRun less enough size item items).2).Perm (item :: items) := by
  unfold firstRun
  dsimp only
  split
  · exact leadingRun_perm less (item :: items)
  · exact .of_eq (congrArg (item :: ·) (List.take_append_drop _ items))

/-- Cutting keeps the items. -/
theorem cutRuns_perm (less : α → α → Bool) (enough size : Nat) (items : List α) :
    ((cutRuns less enough size items).flatMap Run.items).Perm items := by
  fun_induction cutRuns less enough size items with
  | case1 => exact .refl _
  | case2 item items first ih =>
      exact (ih.append_left _).trans (firstRun_perm less enough size item items)

/-- All items are drawn in the end. -/
theorem draw_all_perm (pick : α → α → Bool) (left right : List α) :
    (draw pick (left.length + right.length) left right).taken.Perm (left ++ right) := by
  obtain ⟨a, b, hdraws⟩ := draws pick (left.length + right.length) left right
  have htaken := hdraws.taken_perm.length_eq
  have hleft := congrArg List.length hdraws.left_eq
  have hright := congrArg List.length hdraws.right_eq
  rw [length_taken, Nat.min_self, List.length_append] at htaken
  rw [List.length_append] at hleft hright
  have hnone : (draw pick (left.length + right.length) left right).left = [] ∧
      (draw pick (left.length + right.length) left right).right = [] :=
    ⟨List.eq_nil_of_length_eq_zero (by omega), List.eq_nil_of_length_eq_zero (by omega)⟩
  have ha := hdraws.left_eq
  have hb := hdraws.right_eq
  rw [hnone.1, List.append_nil] at ha
  rw [hnone.2, List.append_nil] at hb
  subst ha hb
  exact hdraws.taken_perm

theorem mergeRuns_perm (less : α → α → Bool) (left right : List α) :
    (mergeRuns less left right).Perm (left ++ right) := by
  unfold mergeRuns
  dsimp only
  split
  · exact draw_all_perm _ left right
  · have hdraw := draw_all_perm (fun l r => less r l) left.reverse right.reverse
    rw [List.length_reverse, List.length_reverse] at hdraw
    exact (List.reverse_perm _).trans
      (hdraw.trans ((List.reverse_perm left).append (List.reverse_perm right)))

/-- A way to sort keeps the items. -/
def KeepsItems (sort? : List α → Option (List α)) : Prop :=
  ∀ items sorted, sort? items = some sorted → sorted.Perm items

section

variable {less : α → α → Bool} {sort? : List α → Option (List α)}
  {join? : Run α → Run α → Option (Run α)}

theorem Run.settled?_perm (hsort : KeepsItems sort?) {run settled : Run α}
    (h : run.settled? sort? = some settled) : settled.items.Perm run.items := by
  unfold Run.settled? at h
  split at h
  · cases h
    exact .refl _
  · obtain ⟨items, hitems, hsettled⟩ := Option.bind_eq_some_iff.mp h
    cases hsettled
    exact hsort _ _ hitems

theorem Run.join?_perm (hsort : KeepsItems sort?) {room : Nat} {left right joined : Run α}
    (h : Run.join? less sort? room left right = some joined) :
    joined.items.Perm (left.items ++ right.items) := by
  unfold Run.join? at h
  split at h
  · cases h
    exact .refl _
  · obtain ⟨left', hleft, h⟩ := Option.bind_eq_some_iff.mp h
    obtain ⟨right', hright, h⟩ := Option.bind_eq_some_iff.mp h
    cases h
    exact (mergeRuns_perm less _ _).trans
      ((Run.settled?_perm hsort hleft).append (Run.settled?_perm hsort hright))

/-- The items of the runs that wait, the first ones first. -/
def waitingItems : List (Run α × Nat) → List α
  | [] => []
  | (run, _) :: waiting => waitingItems waiting ++ run.items

theorem joinWaiting?_perm
    (hjoin : ∀ left right joined, join? left right = some joined →
      joined.items.Perm (left.items ++ right.items))
    {depth : Nat} {waiting waiting' : List (Run α × Nat)} {run joined : Run α}
    (h : joinWaiting? join? depth waiting run = some (waiting', joined)) :
    (waitingItems waiting' ++ joined.items).Perm (waitingItems waiting ++ run.items) := by
  induction waiting generalizing run with
  | nil =>
      cases h
      exact .refl _
  | cons first waiting ih =>
      obtain ⟨left, due⟩ := first
      unfold joinWaiting? at h
      split at h
      · obtain ⟨both, hboth, h⟩ := Option.bind_eq_some_iff.mp h
        have hitems := (hjoin _ _ _ hboth).append_left (waitingItems waiting)
        rw [← List.append_assoc] at hitems
        exact (ih h).trans hitems
      · cases h
        exact .refl _

/-- No run waits for a depth below all others. -/
theorem joinWaiting?_zero {waiting waiting' : List (Run α × Nat)} {run joined : Run α}
    (h : joinWaiting? join? 0 waiting run = some (waiting', joined)) : waiting' = [] := by
  induction waiting generalizing run with
  | nil =>
      cases h
      rfl
  | cons first waiting ih =>
      obtain ⟨left, due⟩ := first
      rw [joinWaiting?, if_pos (Nat.zero_le due)] at h
      obtain ⟨both, hboth, h⟩ := Option.bind_eq_some_iff.mp h
      exact ih h

/-- Joining keeps the items. -/
theorem joinRuns?_perm
    (hjoin : ∀ left right joined, join? left right = some joined →
      joined.items.Perm (left.items ++ right.items))
    {scale start : Nat} {waiting : List (Run α × Nat)} {run whole : Run α} {behind : List (Run α)}
    (h : joinRuns? join? scale waiting start run behind = some whole) :
    whole.items.Perm (waitingItems waiting ++ run.items ++ behind.flatMap Run.items) := by
  induction behind generalizing waiting start run with
  | nil =>
      -- behind the last run no depth is asked for, so all waiting runs are joined
      obtain ⟨⟨waiting', joined⟩, hjoined, h⟩ := Option.bind_eq_some_iff.mp h
      cases h
      have hitems := joinWaiting?_perm hjoin hjoined
      rw [joinWaiting?_zero hjoined] at hitems
      rw [List.flatMap_nil, List.append_nil]
      exact hitems
  | cons next behind ih =>
      unfold joinRuns? at h
      obtain ⟨⟨waiting', joined⟩, hjoined, h⟩ := Option.bind_eq_some_iff.mp h
      have hitems := (joinWaiting?_perm hjoin hjoined).append_right
        (next.items ++ behind.flatMap Run.items)
      have hwhole := ih h
      rw [waitingItems, List.append_assoc] at hwhole
      exact hwhole.trans hitems

end

/-! ## The order -/

section

variable (rank : α → Int)

theorem head?_chain (step : α → α → Bool) (items : List α) :
    (chain step items).1.head? = items.head? := by
  fun_cases chain step items <;> rfl

/-- Where each item steps to the next in a transitive order, it does so to all later ones. -/
theorem chain_pairwise {step : α → α → Bool} {S : α → α → Prop}
    (hstep : ∀ {a b}, step a b = true → S a b) (htrans : ∀ {a b c}, S a b → S b c → S a c)
    (items : List α) : (chain step items).1.Pairwise S := by
  have hchain : (chain step items).1.IsChain S := by
    fun_induction chain step items with
    | case1 x y rest hxy start behind hchain ih =>
        rw [hchain] at ih
        have hhead := head?_chain step (y :: rest)
        rw [hchain] at hhead
        refine List.isChain_cons.mpr ⟨fun z hz => ?_, ih⟩
        rw [hhead] at hz
        cases hz
        exact hstep hxy
    | case2 x y rest hxy => exact .singleton x
    | case3 items hshort =>
        rcases items with - | ⟨x, - | ⟨y, rest⟩⟩
        · exact .nil
        · exact .singleton x
        · exact (hshort x y rest rfl).elim
  let _ : Trans S S S := ⟨htrans⟩
  exact hchain.pairwise

theorem leadingRun_byRank (items : List α) :
    InOrder rank (leadingRun (byRank rank) items).1 := by
  match items with
  | [] => exact .nil
  | [x] => exact List.pairwise_singleton _ x
  | x :: y :: rest =>
      rw [leadingRun]
      split
      · refine List.pairwise_reverse.mpr (chain_pairwise (fun h => ?_) (fun hab hbc => ?_) _)
        · exact Int.le_of_lt ((byRank_eq_true rank).mp h)
        · exact Int.le_trans hbc hab
      · refine chain_pairwise (S := fun a b => rank a ≤ rank b) (fun h => ?_) Int.le_trans _
        simpa using h

/-- If a run is marked as being in order, it is. -/
def Run.Sound (run : Run α) : Prop := run.inOrder = true → InOrder rank run.items

theorem firstRun_sound (enough size : Nat) (item : α) (items : List α) :
    (firstRun (byRank rank) enough size item items).1.Sound rank := by
  unfold firstRun
  dsimp only
  split
  · exact fun _ => leadingRun_byRank rank _
  · exact Bool.noConfusion

theorem cutRuns_sound (enough size : Nat) (items : List α) :
    ∀ run ∈ cutRuns (byRank rank) enough size items, run.Sound rank := by
  fun_induction cutRuns (byRank rank) enough size items with
  | case1 => simp
  | case2 item items first ih =>
      exact List.forall_mem_cons.mpr ⟨firstRun_sound rank enough size item items, ih⟩

theorem mergeRuns_byRank {left right : List α} (hl : InOrder rank left) (hr : InOrder rank right) :
    InOrder rank (mergeRuns (byRank rank) left right) := by
  unfold mergeRuns
  dsimp only
  split
  · exact taken_pairwise (picksBy_front rank) _ hl hr
  · exact List.pairwise_reverse.mpr (taken_pairwise (picksBy_back rank) _
      (List.pairwise_reverse.mpr hl) (List.pairwise_reverse.mpr hr))

/-- A way to sort that has a result for all lists, in order. -/
def Sorts (sort? : List α → Option (List α)) : Prop :=
  ∀ items, ∃ sorted, sort? items = some sorted ∧ InOrder rank sorted

variable {rank} {sort? : List α → Option (List α)} {run left right : Run α}

theorem Run.settled?_sound (hsort : Sorts rank sort?) (hrun : run.Sound rank) :
    ∃ settled, run.settled? sort? = some settled ∧ InOrder rank settled.items := by
  unfold Run.settled?
  split
  · next hmarked => exact ⟨run, rfl, hrun hmarked⟩
  · obtain ⟨sorted, hsorted, horder⟩ := hsort run.items
    rw [hsorted]
    exact ⟨_, rfl, horder⟩

theorem Run.join?_sound (hsort : Sorts rank sort?) (room : Nat) (hl : left.Sound rank)
    (hr : right.Sound rank) :
    ∃ joined, Run.join? (byRank rank) sort? room left right = some joined ∧ joined.Sound rank := by
  unfold Run.join?
  split
  · exact ⟨_, rfl, Bool.noConfusion⟩
  · obtain ⟨left', hleft, hl⟩ := Run.settled?_sound hsort hl
    obtain ⟨right', hright, hr⟩ := Run.settled?_sound hsort hr
    rw [hleft, hright]
    exact ⟨_, rfl, fun _ => mergeRuns_byRank rank hl hr⟩

variable {join? : Run α → Run α → Option (Run α)} {P : Run α → Prop}

theorem joinWaiting?_sound
    (hjoin : ∀ left right, P left → P right → ∃ joined, join? left right = some joined ∧ P joined)
    (depth : Nat) {waiting : List (Run α × Nat)} (hwaiting : ∀ w ∈ waiting, P w.1) (hrun : P run) :
    ∃ waiting' joined, joinWaiting? join? depth waiting run = some (waiting', joined) ∧
      (∀ w ∈ waiting', P w.1) ∧ P joined := by
  induction waiting generalizing run with
  | nil => exact ⟨[], run, rfl, hwaiting, hrun⟩
  | cons first waiting ih =>
      obtain ⟨left, due⟩ := first
      obtain ⟨hleft, hrest⟩ := List.forall_mem_cons.mp hwaiting
      unfold joinWaiting?
      split
      · obtain ⟨both, hboth, hP⟩ := hjoin left run hleft hrun
        rw [hboth]
        exact ih hrest hP
      · exact ⟨_, run, rfl, hwaiting, hrun⟩

/-- What joining two runs keeps to is so for the whole. -/
theorem joinRuns?_sound
    (hjoin : ∀ left right, P left → P right → ∃ joined, join? left right = some joined ∧ P joined)
    (scale start : Nat) {waiting : List (Run α × Nat)} {behind : List (Run α)}
    (hwaiting : ∀ w ∈ waiting, P w.1) (hrun : P run) (hbehind : ∀ r ∈ behind, P r) :
    ∃ whole, joinRuns? join? scale waiting start run behind = some whole ∧ P whole := by
  induction behind generalizing waiting start run with
  | nil =>
      obtain ⟨_, whole, hwhole, -, hP⟩ := joinWaiting?_sound hjoin 0 hwaiting hrun
      rw [joinRuns?, hwhole]
      exact ⟨whole, rfl, hP⟩
  | cons next behind ih =>
      obtain ⟨hnext, hbehind⟩ := List.forall_mem_cons.mp hbehind
      obtain ⟨waiting', joined, hjoined, hwaiting', hP⟩ := joinWaiting?_sound hjoin _ hwaiting hrun
      rw [joinRuns?]
      dsimp only
      rw [hjoined]
      exact ih _ (List.forall_mem_cons.mpr ⟨hP, hwaiting'⟩) hnext hbehind

end

/-! ## Other items -/

section

variable {less : β → β → Bool} {less' : α → α → Bool} {f : α → β}

theorem chain_map {step : β → β → Bool} {step' : α → α → Bool}
    (h : ∀ x y, step (f x) (f y) = step' x y) (items : List α) :
    chain step (items.map f) = (chain step' items).map (List.map f) (List.map f) := by
  fun_induction chain step' items with
  | case1 x y rest hxy start behind hchain ih =>
      rw [hchain] at ih
      rw [List.map_cons, List.map_cons, chain, h, if_pos hxy, ← List.map_cons, ih]
      rfl
  | case2 x y rest hxy =>
      rw [List.map_cons, List.map_cons, chain, h, if_neg hxy]
      rfl
  | case3 items hshort =>
      rcases items with - | ⟨x, - | ⟨y, rest⟩⟩
      · rfl
      · rfl
      · exact (hshort x y rest rfl).elim

theorem leadingRun_map (h : ∀ x y, less (f x) (f y) = less' x y) (items : List α) :
    leadingRun less (items.map f) = (leadingRun less' items).map (List.map f) (List.map f) := by
  match items with
  | [] => rfl
  | [x] => rfl
  | x :: y :: rest =>
      have hfalling : chain (fun a b => less b a) ((x :: y :: rest).map f)
          = (chain (fun a b => less' b a) (x :: y :: rest)).map (List.map f) (List.map f) :=
        chain_map (fun x y => h y x) _
      have hrising : chain (fun a b => !less b a) ((x :: y :: rest).map f)
          = (chain (fun a b => !less' b a) (x :: y :: rest)).map (List.map f) (List.map f) :=
        chain_map (fun x y => congrArg (!·) (h y x)) _
      rw [List.map_cons, List.map_cons] at hfalling hrising ⊢
      rw [leadingRun, leadingRun, h, hfalling, hrising]
      split
      · simp [Prod.map]
      · rfl

/-- The same run of other items. -/
def Run.map (f : α → β) (run : Run α) : Run β := ⟨run.items.map f, run.inOrder⟩

theorem firstRun_map (h : ∀ x y, less (f x) (f y) = less' x y) (enough size : Nat) (item : α)
    (items : List α) :
    firstRun less enough size (f item) (items.map f)
      = (firstRun less' enough size item items).map (Run.map f) (List.map f) := by
  unfold firstRun
  rw [← List.map_cons, leadingRun_map h]
  simp only [Prod.map, List.length_map]
  split
  · rfl
  · rw [← List.map_take, ← List.map_drop]
    rfl

theorem cutRuns_map (h : ∀ x y, less (f x) (f y) = less' x y) (enough size : Nat)
    (items : List α) :
    cutRuns less enough size (items.map f) = (cutRuns less' enough size items).map (Run.map f) := by
  fun_induction cutRuns less' enough size items with
  | case1 => rw [List.map_nil, cutRuns, List.map_nil]
  | case2 item items first ih =>
      rw [List.map_cons, cutRuns, firstRun_map h, List.map_cons]
      exact congrArg (Run.map f first.1 :: ·) ih

theorem mergeRuns_map (h : ∀ x y, less (f x) (f y) = less' x y) (left right : List α) :
    mergeRuns less (left.map f) (right.map f) = (mergeRuns less' left right).map f := by
  unfold mergeRuns
  simp only [front_map h, back_map h, Drawn.map, List.length_map]
  split
  · rfl
  · rw [List.map_reverse]

variable {sort? : List β → Option (List β)} {sort?' : List α → Option (List α)}

theorem Run.settled?_map (hsort : ∀ items, sort? (items.map f) = (sort?' items).map (List.map f))
    (run : Run α) :
    (run.map f).settled? sort? = (run.settled? sort?').map (Run.map f) := by
  unfold Run.settled?
  simp only [Run.map, hsort]
  split
  · rfl
  · cases sort?' run.items <;> rfl

theorem Run.join?_map (h : ∀ x y, less (f x) (f y) = less' x y)
    (hsort : ∀ items, sort? (items.map f) = (sort?' items).map (List.map f)) (room : Nat)
    (left right : Run α) :
    Run.join? less sort? room (left.map f) (right.map f)
      = (Run.join? less' sort?' room left right).map (Run.map f) := by
  unfold Run.join?
  rw [Run.settled?_map hsort, Run.settled?_map hsort]
  simp only [Run.map, List.length_map]
  split
  · simp [Run.map]
  · cases left.settled? sort?' with
    | none => rfl
    | some left' =>
        cases right.settled? sort?' with
        | none => rfl
        | some right' => simp [Run.map, mergeRuns_map h]

variable {join? : Run β → Run β → Option (Run β)} {join?' : Run α → Run α → Option (Run α)}

/-- The same runs of other items, waiting. -/
def mapWaiting (f : α → β) (waiting : List (Run α × Nat)) : List (Run β × Nat) :=
  waiting.map (Prod.map (Run.map f) id)

theorem joinWaiting?_map
    (hjoin : ∀ left right, join? (left.map f) (right.map f) = (join?' left right).map (Run.map f))
    (depth : Nat) (waiting : List (Run α × Nat)) (run : Run α) :
    joinWaiting? join? depth (mapWaiting f waiting) (run.map f)
      = (joinWaiting? join?' depth waiting run).map (Prod.map (mapWaiting f) (Run.map f)) := by
  induction waiting generalizing run with
  | nil => rfl
  | cons first waiting ih =>
      obtain ⟨left, due⟩ := first
      show joinWaiting? join? depth ((left.map f, due) :: mapWaiting f waiting) (run.map f) = _
      rw [joinWaiting?, joinWaiting?]
      split
      · rw [hjoin]
        cases join?' left run with
        | none => rfl
        | some joined => exact ih joined
      · rfl

theorem joinRuns?_map
    (hjoin : ∀ left right, join? (left.map f) (right.map f) = (join?' left right).map (Run.map f))
    (scale start : Nat) (waiting : List (Run α × Nat)) (run : Run α) (behind : List (Run α)) :
    joinRuns? join? scale (mapWaiting f waiting) start (run.map f) (behind.map (Run.map f))
      = (joinRuns? join?' scale waiting start run behind).map (Run.map f) := by
  induction behind generalizing waiting start run with
  | nil =>
      rw [List.map_nil, joinRuns?, joinRuns?, joinWaiting?_map hjoin]
      cases joinWaiting? join?' 0 waiting run <;> rfl
  | cons next behind ih =>
      have hlengths : ∀ run : Run α, (run.map f).items.length = run.items.length := fun run =>
        List.length_map f
      rw [List.map_cons, joinRuns?, joinRuns?]
      simp only [hlengths, joinWaiting?_map hjoin]
      cases joinWaiting? join?' _ waiting run with
      | none => rfl
      | some result =>
          obtain ⟨waiting', joined⟩ := result
          exact ih _ ((joined, _) :: waiting') next

end

end IndexQuery.Sorting
