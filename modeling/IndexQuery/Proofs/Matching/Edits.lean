import IndexQuery.Matching.Selection
import Mathlib.Order.Bounds.Basic
set_option autoImplicit false

/-! # The distance of two words

An edit puts a character into a word, takes one out or replaces one. `editDistance` is the least
number of edits between two words (`isLeast_leastEdits`, `editDistance_eq_leastEdits`). The proof
goes through the recursive definition `leastEdits`, which looks at the first characters: one edit
changes it by at most one, so that no sequence of edits is shorter, and its three cases are edits,
so that some sequence is as short. The rows that `editDistance` computes hold this recursive
distance between prefixes (`lastRow_eq`); prefixes grow at the end, hence the words are read
backwards there.

Looked up by position, every cell that a row needs is there (`tableDistance?_eq`). -/

namespace IndexQuery.Matching

/-! ## Edits -/

/-- One character put in, taken out or replaced. -/
inductive Edit : List Char → List Char → Prop
  | insert (a b : List Char) (c : Char) : Edit (a ++ b) (a ++ c :: b)
  | delete (a b : List Char) (c : Char) : Edit (a ++ c :: b) (a ++ b)
  | substitute (a b : List Char) (c d : Char) : Edit (a ++ c :: b) (a ++ d :: b)

/-- A number of edits, one after the other. -/
inductive Edits : Nat → List Char → List Char → Prop
  | none (w : List Char) : Edits 0 w w
  | more {n : Nat} {u v w : List Char} : Edit u v → Edits n v w → Edits (n + 1) u w

variable {u v w : List Char} {n : Nat}

theorem Edit.cons (c : Char) (h : Edit u v) : Edit (c :: u) (c :: v) := by
  cases h with
  | insert a b x => exact .insert (c :: a) b x
  | delete a b x => exact .delete (c :: a) b x
  | substitute a b x y => exact .substitute (c :: a) b x y

theorem Edit.symm (h : Edit u v) : Edit v u := by
  cases h with
  | insert a b x => exact .delete a b x
  | delete a b x => exact .insert a b x
  | substitute a b x y => exact .substitute a b y x

theorem Edit.reverse (h : Edit u v) : Edit u.reverse v.reverse := by
  cases h with
  | insert a b x => simpa using Edit.insert b.reverse a.reverse x
  | delete a b x => simpa using Edit.delete b.reverse a.reverse x
  | substitute a b x y => simpa using Edit.substitute b.reverse a.reverse x y

theorem Edits.cons (c : Char) (h : Edits n u v) : Edits n (c :: u) (c :: v) := by
  induction h with
  | none w => exact .none (c :: w)
  | more h _ ih => exact .more (h.cons c) ih

theorem Edits.snoc (h : Edits n u v) (hlast : Edit v w) : Edits (n + 1) u w := by
  induction h with
  | none v => exact .more hlast (.none w)
  | more h _ ih => exact .more h (ih hlast)

theorem Edits.symm (h : Edits n u v) : Edits n v u := by
  induction h with
  | none w => exact .none w
  | more h _ ih => exact ih.snoc h.symm

theorem Edits.reverse (h : Edits n u v) : Edits n u.reverse v.reverse := by
  induction h with
  | none w => exact .none w.reverse
  | more h _ ih => exact .more h.reverse ih

/-- Of two numbers of edits the smaller one. -/
theorem Edits.min {m : Nat} (hm : Edits m u w) (hn : Edits n u w) : Edits (min m n) u w := by
  rcases Nat.le_total m n with h | h
  · rwa [Nat.min_eq_left h]
  · rwa [Nat.min_eq_right h]

theorem edits_zero_iff : Edits 0 u v ↔ u = v := by
  constructor
  · rintro ⟨⟩
    rfl
  · rintro rfl
    exact .none u

theorem edits_one_iff : Edits 1 u v ↔ Edit u v := by
  constructor
  · rintro (_ | ⟨h, hrest⟩)
    rwa [← edits_zero_iff.mp hrest]
  · exact fun h => .more h (.none v)

/-! ## The recursive distance -/

/-- The distance of two words by their first characters: these are matched or replaced, or the
first one is taken out, or the second one is put in. -/
def leastEdits : List Char → List Char → Nat
  | [], right => right.length
  | c :: left, [] => (c :: left).length
  | c :: left, d :: right =>
    min (leastEdits left right + if c = d then 0 else 1)
      (min (leastEdits left (d :: right) + 1) (leastEdits (c :: left) right + 1))
termination_by left right => left.length + right.length

theorem leastEdits_nil (u : List Char) : leastEdits u [] = u.length := by
  cases u <;> simp [leastEdits]

/-- A further character on the left costs at most one edit. -/
theorem leastEdits_cons_left_le (c : Char) (u w : List Char) :
    leastEdits (c :: u) w ≤ leastEdits u w + 1 := by
  cases w with
  | nil => simp [leastEdits_nil]
  | cons d w =>
      rw [leastEdits]
      omega

/-- A further character on the right costs at most one edit. -/
theorem leastEdits_cons_right_le (d : Char) (u w : List Char) :
    leastEdits u (d :: w) ≤ leastEdits u w + 1 := by
  cases u with
  | nil => simp [leastEdits]
  | cons c u =>
      rw [leastEdits]
      omega

theorem leastEdits_cons_cons_le (c d : Char) (u w : List Char) :
    leastEdits (c :: u) (d :: w) ≤ leastEdits u w + 1 := by
  rw [leastEdits]
  split <;> omega

/-- Without its first character a word is at most one edit farther away. -/
theorem leastEdits_le_cons_left (c : Char) (u w : List Char) :
    leastEdits u w ≤ leastEdits (c :: u) w + 1 := by
  -- the recursion may put in characters of `w` in front of `c` first, hence the induction on `w`
  induction w with
  | nil =>
      rw [leastEdits_nil, leastEdits_nil, List.length_cons]
      omega
  | cons d w ih =>
      have hright := leastEdits_cons_right_le d u w
      rw [leastEdits.eq_def (c :: u)]
      dsimp only
      omega

/-- With another first character a word is at most one edit farther away. -/
theorem leastEdits_replace_le (c d : Char) (u w : List Char) :
    leastEdits (c :: u) w ≤ leastEdits (d :: u) w + 1 := by
  induction w with
  | nil => simp [leastEdits_nil]
  | cons x w ih =>
      have hboth := leastEdits_cons_cons_le c x u w
      have hleft := leastEdits_cons_left_le c u (x :: w)
      have hright := leastEdits_cons_right_le x (c :: u) w
      rw [leastEdits.eq_def (d :: u)]
      dsimp only
      omega

/-- A bound on the distance of two words, whatever the third one is, holds behind a common first
character too. -/
theorem leastEdits_cons_mono (c : Char) (h : ∀ w, leastEdits u w ≤ leastEdits v w + 1)
    (w : List Char) : leastEdits (c :: u) w ≤ leastEdits (c :: v) w + 1 := by
  induction w with
  | nil =>
      have hlength := h []
      simp only [leastEdits_nil, List.length_cons] at hlength ⊢
      omega
  | cons d w ih =>
      have hboth := h w
      have hleft := h (d :: w)
      simp only [leastEdits]
      omega

theorem leastEdits_append_mono (a : List Char) (h : ∀ w, leastEdits u w ≤ leastEdits v w + 1)
    (w : List Char) : leastEdits (a ++ u) w ≤ leastEdits (a ++ v) w + 1 := by
  -- the bound is needed for every `w`, since a shared character is compared with all parts of it
  induction a generalizing w with
  | nil => exact h w
  | cons c a ih => exact leastEdits_cons_mono c ih w

/-- One edit changes the distance from any word by at most one. -/
theorem Edit.leastEdits_le (h : Edit u v) (w : List Char) :
    leastEdits u w ≤ leastEdits v w + 1 := by
  cases h with
  | insert a b c => exact leastEdits_append_mono a (leastEdits_le_cons_left c b) w
  | delete a b c => exact leastEdits_append_mono a (leastEdits_cons_left_le c b) w
  | substitute a b c d => exact leastEdits_append_mono a (leastEdits_replace_le c d b) w

theorem leastEdits_self (w : List Char) : leastEdits w w = 0 := by
  induction w with
  | nil => simp [leastEdits]
  | cons c w ih => simp [leastEdits, ih]

/-- No sequence of edits is shorter than the distance. -/
theorem Edits.leastEdits_le (h : Edits n u w) : leastEdits u w ≤ n := by
  induction h with
  | none w => exact (leastEdits_self w).le
  | @more n u v w hfirst _ ih =>
      calc leastEdits u w ≤ leastEdits v w + 1 := hfirst.leastEdits_le w
        _ ≤ n + 1 := Nat.succ_le_succ ih

theorem edits_nil_left (w : List Char) : Edits w.length [] w := by
  induction w with
  | nil => exact .none []
  | cons d w ih => exact .more (.insert [] [] d) (ih.cons d)

theorem edits_nil_right (u : List Char) : Edits u.length u [] := by
  induction u with
  | nil => exact .none []
  | cons c u ih => exact .more (.delete [] u c) ih

/-- Some sequence of edits is as short as the distance. -/
theorem edits_leastEdits (u w : List Char) : Edits (leastEdits u w) u w := by
  fun_induction leastEdits u w with
  | case1 w => exact edits_nil_left w
  | case2 c u => exact edits_nil_right (c :: u)
  | case3 c u d w hboth hleft hright =>
      have hmatch : Edits (leastEdits u w + if c = d then 0 else 1) (c :: u) (d :: w) := by
        by_cases hcd : c = d
        · simpa [hcd] using hboth.cons d
        · simpa [hcd] using Edits.more (.substitute [] u c d) (hboth.cons d)
      have hdelete : Edits (leastEdits u (d :: w) + 1) (c :: u) (d :: w) :=
        .more (.delete [] u c) hleft
      have hinsert : Edits (leastEdits (c :: u) w + 1) (c :: u) (d :: w) :=
        .more (.insert [] (c :: u) d) (hright.cons d)
      exact hmatch.min (hdelete.min hinsert)

theorem isLeast_leastEdits (u w : List Char) : IsLeast {n | Edits n u w} (leastEdits u w) :=
  ⟨edits_leastEdits u w, fun _ h => h.leastEdits_le⟩

/-- Read backwards, two words are as far apart as before. -/
theorem leastEdits_reverse (u w : List Char) : leastEdits u.reverse w.reverse = leastEdits u w := by
  have hback : Edits (leastEdits u.reverse w.reverse) u w := by
    simpa using (edits_leastEdits u.reverse w.reverse).reverse
  exact le_antisymm (edits_leastEdits u w).reverse.leastEdits_le hback.leastEdits_le

theorem leastEdits_comm (u w : List Char) : leastEdits u w = leastEdits w u :=
  le_antisymm (edits_leastEdits w u).symm.leastEdits_le (edits_leastEdits u w).symm.leastEdits_le

theorem leastEdits_eq_zero_iff : leastEdits u w = 0 ↔ u = w := by
  constructor
  · intro h
    exact edits_zero_iff.mp (h ▸ edits_leastEdits u w)
  · rintro rfl
    exact leastEdits_self u

theorem leastEdits_le_one_iff : leastEdits u w ≤ 1 ↔ u = w ∨ Edit u w := by
  constructor
  · intro h
    have hedits := edits_leastEdits u w
    rcases Nat.le_one_iff_eq_zero_or_eq_one.mp h with hzero | hone
    · exact .inl (leastEdits_eq_zero_iff.mp hzero)
    · exact .inr (edits_one_iff.mp (hone ▸ hedits))
  · rintro (rfl | hedit)
    · rw [leastEdits_self]
      exact Nat.zero_le 1
    · exact (edits_one_iff.mpr hedit).leastEdits_le

/-! ## The rows of the table -/

/-- The distances of a prefix of the left word from the prefixes of the right word, from the prefix
`done` on; `right` is what comes behind it. Prefixes are read backwards. -/
def distances (seen : List Char) : List Char → List Char → List Nat
  | done, [] => [leastEdits seen done]
  | done, d :: right => leastEdits seen done :: distances seen (d :: done) right

theorem distances_eq_cons (seen done right : List Char) :
    distances seen done right = leastEdits seen done :: (distances seen done right).tail := by
  cases right <;> rfl

theorem getLastD_distances (seen done right : List Char) (x : Nat) :
    (distances seen done right).getLastD x = leastEdits seen (right.reverse ++ done) := by
  induction right generalizing done x with
  | nil => rfl
  | cons d right ih =>
      rw [distances, List.getLastD_cons, ih, List.reverse_cons, List.append_assoc,
        List.singleton_append]

theorem distances_nil (done right : List Char) :
    distances [] done right = List.range' done.length (right.length + 1) := by
  induction right generalizing done with
  | nil => simp [distances, leastEdits]
  | cons d right ih =>
      rw [distances, leastEdits, ih, List.length_cons, List.length_cons, ← List.range'_succ]

/-- The row below the row of a prefix is the row of the prefix with one more character. -/
theorem nextRow_distances (c : Char) (seen done right : List Char) :
    nextRow c (leastEdits (c :: seen) done) right (distances seen done right)
      = (distances (c :: seen) done right).tail := by
  induction right generalizing done with
  | nil => simp [nextRow, distances]
  | cons d right ih =>
      have hcell : leastEdits (c :: seen) (d :: done)
          = min (leastEdits seen done + if c = d then 0 else 1)
            (min (leastEdits seen (d :: done) + 1) (leastEdits (c :: seen) done + 1)) := by
        rw [leastEdits]
      have hrow : nextRow c (leastEdits (c :: seen) done) (d :: right)
            (leastEdits seen done :: distances seen (d :: done) right)
          = leastEdits (c :: seen) (d :: done) ::
            nextRow c (leastEdits (c :: seen) (d :: done)) right
              (distances seen (d :: done) right) := by
        rw [distances_eq_cons seen (d :: done) right, nextRow, hcell]
      calc nextRow c (leastEdits (c :: seen) done) (d :: right) (distances seen done (d :: right))
          = leastEdits (c :: seen) (d :: done) ::
            (distances (c :: seen) (d :: done) right).tail := by
            rw [distances, hrow, ih]
        _ = (distances (c :: seen) done (d :: right)).tail := by
            rw [← distances_eq_cons, distances, List.tail_cons]

/-- The last row is the row of the whole left word. -/
theorem lastRow_eq (seen left right : List Char) :
    lastRow right left (distances seen [] right) = distances (left.reverse ++ seen) [] right := by
  -- the invariant of the rows: behind the prefix `seen` the row holds its distances
  induction left generalizing seen with
  | nil => rfl
  | cons c left ih =>
      have hfirst : (distances seen [] right).headD 0 + 1 = leastEdits (c :: seen) [] := by
        rw [distances_eq_cons, List.headD_cons, leastEdits_nil, leastEdits_nil, List.length_cons]
      have hnext : ((distances seen [] right).headD 0 + 1) ::
            nextRow c ((distances seen [] right).headD 0 + 1) right (distances seen [] right)
          = distances (c :: seen) [] right := by
        rw [hfirst, nextRow_distances, ← distances_eq_cons]
      calc lastRow right (c :: left) (distances seen [] right)
          = lastRow right left (distances (c :: seen) [] right) := by
            rw [← hnext]
            rfl
        _ = distances ((c :: left).reverse ++ seen) [] right := by
            rw [ih, List.reverse_cons, List.append_assoc, List.singleton_append]

/-- The table computes the recursive distance. -/
theorem editDistance_eq_leastEdits (left right : List Char) :
    editDistance left right = leastEdits left right := by
  have hfirst : List.range (right.length + 1) = distances [] [] right := by
    rw [distances_nil, List.length_nil, List.range_eq_range']
  calc editDistance left right
      = leastEdits left.reverse right.reverse := by
        rw [editDistance, hfirst, lastRow_eq, getLastD_distances, List.append_nil, List.append_nil]
    _ = leastEdits left right := leastEdits_reverse left right

/-! ## The table by position -/

/-- Fills the cell of a row behind position `j` from the three cells around it; `none` if one of
the four positions is outside its row. -/
def fillCell? (c : Char) (previous current : List Nat) (d : Char) (j : Nat) :
    Option (List Nat) := do
  let diagonal ← previous[j]?
  let above ← previous[j + 1]?
  let before ← current[j]?
  if j + 1 < current.length then
    some (current.set (j + 1)
      (min (diagonal + if c = d then 0 else 1) (min (above + 1) (before + 1))))
  else none

/-- Fills the row of the character `c` at position `i` of the left word, from left to right. -/
def fillRow? (right : List Char) (previous : List Nat) (c : Char) (i : Nat) : Option (List Nat) :=
  right.zipIdx.foldlM (fun current cell => fillCell? c previous current cell.1 cell.2)
    (List.replicate (right.length + 1) (i + 1))

/-- The distance from a table of two rows that are read and filled by position; `none` if a position
is outside its row. -/
def tableDistance? (left right : List Char) : Option Nat := do
  let last ← left.zipIdx.foldlM (fun previous row => fillRow? right previous row.1 row.2)
    (List.range (right.length + 1))
  last[right.length]?

variable {c : Char} {right left : List Char} {row : List Nat}

theorem length_nextRow (before : Nat) (hrow : row.length = right.length + 1) :
    (nextRow c before right row).length = right.length := by
  induction right generalizing before row with
  | nil => simp [nextRow]
  | cons d right ih =>
      match row, hrow with
      | diagonal :: above :: row, hrow =>
          have hrest : (above :: row).length = right.length + 1 := by simpa using hrow
          simp [nextRow, ih _ hrest]

/-- Behind a filled part of the row the next cell is filled, from the cells above it. -/
theorem fillCell?_eq {passed filled : List Nat} (hpassed : passed.length = filled.length)
    (c d : Char) (diagonal above before x : Nat) (row rest : List Nat) :
    fillCell? c (passed ++ diagonal :: above :: row) (filled ++ before :: x :: rest) d filled.length
      = some (filled ++ before ::
        min (diagonal + if c = d then 0 else 1) (min (above + 1) (before + 1)) :: rest) := by
  have hdiagonal : (passed ++ diagonal :: above :: row)[filled.length]? = some diagonal := by
    simp [← hpassed]
  have habove : (passed ++ diagonal :: above :: row)[filled.length + 1]? = some above := by
    simp [← hpassed]
  simp [fillCell?, hdiagonal, habove, List.set_append_right]

/-- The row is filled with the entries of `nextRow`, from any position on. -/
theorem foldlM_fillCell? (passed filled : List Nat) (before x : Nat)
    (hpassed : passed.length = filled.length) (hrow : row.length = right.length + 1) :
    (right.zipIdx filled.length).foldlM
        (fun current cell => fillCell? c (passed ++ row) current cell.1 cell.2)
        (filled ++ before :: List.replicate right.length x)
      = some (filled ++ before :: nextRow c before right row) := by
  -- `passed` and `filled` are the two rows left of the position, where the loop never looks back
  induction right generalizing passed filled before row with
  | nil => simp [nextRow]
  | cons d right ih =>
      match row, hrow with
      | diagonal :: above :: row, hrow =>
          have hrest : (above :: row).length = right.length + 1 := by simpa using hrow
          have hnext := ih (passed ++ [diagonal]) (filled ++ [before])
            (min (diagonal + if c = d then 0 else 1) (min (above + 1) (before + 1)))
            (by simp [hpassed]) hrest
          simp only [List.length_append, List.length_singleton, List.append_assoc,
            List.singleton_append] at hnext
          rw [List.zipIdx_cons, List.foldlM_cons, List.length_cons, List.replicate_succ,
            fillCell?_eq hpassed, nextRow]
          exact hnext

/-- The row of a character is its number of characters, followed by the entries of `nextRow`. -/
theorem fillRow?_eq (c : Char) (i : Nat) (hrow : row.length = right.length + 1) :
    fillRow? right row c i = some ((i + 1) :: nextRow c (i + 1) right row) :=
  foldlM_fillCell? [] [] (i + 1) (i + 1) rfl hrow

/-- The rows filled by position are the rows of `lastRow`, from any row on. -/
theorem foldlM_fillRow? (left : List Char) (i : Nat) (hrow : row.length = right.length + 1)
    (hfirst : row.headD 0 = i) :
    (left.zipIdx i).foldlM (fun previous row => fillRow? right previous row.1 row.2) row
        = some (lastRow right left row) ∧
      (lastRow right left row).length = right.length + 1 := by
  induction left generalizing row i with
  | nil => exact ⟨rfl, hrow⟩
  | cons c left ih =>
      have hlength : ((i + 1) :: nextRow c (i + 1) right row).length = right.length + 1 := by
        rw [List.length_cons, length_nextRow _ hrow]
      rw [List.zipIdx_cons, List.foldlM_cons, fillRow?_eq c i hrow, lastRow, hfirst]
      exact ih (i + 1) hlength rfl

/-- No position is outside its row, and the table by position computes the same distance. -/
theorem tableDistance?_eq (left right : List Char) :
    tableDistance? left right = some (editDistance left right) := by
  have hrow : (List.range (right.length + 1)).length = right.length + 1 := List.length_range
  have hfirst : (List.range (right.length + 1)).headD 0 = 0 := by
    rw [List.range_succ_eq_map, List.headD_cons]
  obtain ⟨hlast, hlength⟩ := foldlM_fillRow? left 0 hrow hfirst
  have hcell : (lastRow right left (List.range (right.length + 1)))[right.length]?
      = some (editDistance left right) := by
    rw [editDistance, List.getLastD_eq_getLast?, List.getLast?_eq_getElem?, hlength,
      Nat.add_sub_cancel, List.getElem?_eq_getElem (by omega), Option.getD_some]
  calc tableDistance? left right
      = (lastRow right left (List.range (right.length + 1)))[right.length]? := by
        rw [tableDistance?, hlast]
        rfl
    _ = some (editDistance left right) := hcell

/-! ## Fuzzy literals -/

/-- A text literal is met by the texts that match it; nothing else is a text. -/
theorem termMatches_text_iff {key pattern : String} {mode : TextMode} {doc : Datum} :
    termMatches key (.text mode pattern) doc = true ↔
      ∃ text, stored key doc = some (.text text) ∧
        textMatches mode pattern.toList text.toList = true := by
  rw [termMatches, literalMatches, Option.any_eq_true]
  constructor
  · rintro ⟨text, htext, hmatches⟩
    obtain ⟨value, hvalue, htext⟩ := Option.bind_eq_some_iff.mp htext
    cases value with
    | text s =>
        cases htext
        exact ⟨text, hvalue, hmatches⟩
    | _ => cases htext
  · rintro ⟨text, hvalue, hmatches⟩
    exact ⟨text, by rw [hvalue]; rfl, hmatches⟩

/-- A fuzzy pattern matches when each of its words is a word of the text up to one edit. -/
theorem textMatches_fuzzy_iff (pattern text : List Char) :
    textMatches .fuzzy pattern text = true ↔
      ∀ w ∈ words pattern, ∃ p ∈ words text, p = w ∨ Edit p w := by
  have hword : ∀ p w : List Char, editDistance p w ≤ 1 ↔ p = w ∨ Edit p w := by
    intro p w
    rw [editDistance_eq_leastEdits, leastEdits_le_one_iff]
  cases hwords : words pattern with
  | nil => simp [textMatches, hwords]
  | cons w rest => simp [textMatches, hwords, hword]

/-- The table of rows computes the least number of insertions, deletions and substitutions, by the
recursive definition as well as over all sequences of edits; this is a distance, and no position is
outside its row. A fuzzy literal is met by the texts that have each of its words up to one edit. -/
theorem editDistance_counts_edits :
    (∀ left right : List Char,
      IsLeast {n | Edits n left right} (editDistance left right) ∧
      editDistance left right = leastEdits left right ∧
      editDistance left right = editDistance right left ∧
      (editDistance left right = 0 ↔ left = right) ∧
      tableDistance? left right = some (editDistance left right)) ∧
    ∀ (key pattern : String) (doc : Datum),
      termMatches key (.text .fuzzy pattern) doc = true ↔
        ∃ text, stored key doc = some (.text text) ∧
          ∀ w ∈ words pattern.toList, ∃ p ∈ words text.toList, p = w ∨ Edit p w := by
  refine ⟨fun left right => ?_, fun key pattern doc => ?_⟩
  · have hleast : IsLeast {n | Edits n left right} (editDistance left right) := by
      rw [editDistance_eq_leastEdits]
      exact isLeast_leastEdits left right
    have hcomm : editDistance left right = editDistance right left := by
      rw [editDistance_eq_leastEdits, editDistance_eq_leastEdits, leastEdits_comm]
    have hzero : editDistance left right = 0 ↔ left = right := by
      rw [editDistance_eq_leastEdits, leastEdits_eq_zero_iff]
    exact ⟨hleast, editDistance_eq_leastEdits left right, hcomm, hzero,
      tableDistance?_eq left right⟩
  · rw [termMatches_text_iff]
    simp only [textMatches_fuzzy_iff]

/-- Two letters replaced and one put in. -/
example : editDistance "kitten".toList "sitting".toList = 3 := by decide

end IndexQuery.Matching
