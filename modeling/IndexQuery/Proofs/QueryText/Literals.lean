import IndexQuery.Matching.Selection
import IndexQuery.Proofs.Encoding.Encoded
import IndexQuery.Proofs.Number.Order
import IndexQuery.Proofs.QueryText.Grammar
import IndexQuery.Proofs.Text.Cutting
set_option autoImplicit false

/-! # Literals in the grammar

Every literal on a key is an atom of the grammar of queries (`write_atom`), and encoded literals are
valid atoms. Different literals may be the same atom: patterns that differ in the separators between
their words, patterns without words in any mode, and an end at infinity and no end at all. Such
literals are met by the same documents (`termMatches_of_atom`), the last ones because a range that
is encoded has another end, which no stored value that is not a number meets. -/

namespace IndexQuery.QueryText

open Matching
open Double (isNaN_of_isFinite)

/-! ## Text patterns -/

/-- A word without marks. -/
def bare (w : List Char) : Marked := ⟨none, w, none⟩

/-- Words with a mark behind the last one. -/
def lastMarked : List (List Char) → List Marked
  | [] => []
  | [w] => [⟨none, w, some '*'⟩]
  | w :: rest => bare w :: lastMarked rest

/-- The words of a pattern with the marks of its mode. -/
def markedWords (mode : TextMode) (ws : List (List Char)) : List Marked :=
  match mode, ws with
  | .exact, ws => ws.map bare
  | .starts, ws => lastMarked ws
  | .ends, [] => []
  | .ends, w :: rest => ⟨some '*', w, none⟩ :: rest.map bare
  | .contains, ws => ws.map fun w => ⟨some '*', w, some '*'⟩
  | .fuzzy, ws => ws.map fun w => ⟨some '%', w, some '%'⟩

/-- Several words, one, or the bare wildcard. -/
def ofWords : List Marked → Comparand
  | [] => .word ⟨some '*', [], none⟩
  | [w] => .word w
  | ws => .words ws

/-- The comparand of a text literal. -/
def textComparand (mode : TextMode) (s : List Char) : Comparand :=
  if mode = .exact then .phrase s else ofWords (markedWords mode (words s))

theorem write_bare (w : List Char) : (bare w).write textSpecial = escape textSpecial.contains w :=
  List.append_nil _

theorem map_write_bare (ws : List (List Char)) :
    (ws.map bare).map (Marked.write textSpecial) = ws.map (escape textSpecial.contains) := by
  rw [List.map_map]
  exact List.map_congr_left fun w _ => write_bare w

theorem write_lastMarked (ws : List (List Char)) :
    (lastMarked ws).map (Marked.write textSpecial)
      = markLast (ws.map (escape textSpecial.contains)) := by
  induction ws with
  | nil => rfl
  | cons w rest ih =>
      cases rest with
      | nil => rfl
      | cons v rest =>
          rw [lastMarked, List.map_cons, ih, write_bare]
          · rfl
          · simp

/-- A pattern is its marked words, joined. -/
theorem textPattern_eq {mode : TextMode} (hmode : mode ≠ .exact) (s : List Char) :
    textPattern mode s
      = joinWords ((markedWords mode (words s)).map (Marked.write textSpecial)) := by
  cases mode with
  | exact => exact absurd rfl hmode
  | starts => rw [markedWords, write_lastMarked]; rfl
  | ends =>
      show joinWords (markFirst ((words s).map (escape textSpecial.contains))) = _
      cases words s with
      | nil => rfl
      | cons w rest =>
          rw [markedWords, List.map_cons, List.map_cons, map_write_bare, Marked.write]
          simp [markFirst]
  | contains =>
      show joinWords (((words s).map (escape textSpecial.contains)).map _) = _
      rw [markedWords, List.map_map, List.map_map]
      rfl
  | fuzzy =>
      show joinWords (((words s).map (escape textSpecial.contains)).map _) = _
      rw [markedWords, List.map_map, List.map_map]
      rfl

theorem of_mem_lastMarked {ws : List (List Char)} {m : Marked} (hm : m ∈ lastMarked ws) :
    m.word ∈ ws ∧ m.lead = none ∧ ∀ c ∈ m.trail, c ∈ wordMarks := by
  induction ws with
  | nil => cases hm
  | cons w rest ih =>
      cases rest with
      | nil =>
          rw [List.mem_singleton.mp hm]
          exact ⟨List.mem_cons_self, rfl, by simp [wordMarks]⟩
      | cons v rest =>
          rcases List.mem_cons.mp hm with rfl | hm
          · exact ⟨List.mem_cons_self, rfl, by simp [bare]⟩
          · obtain ⟨hword, hlead, htrail⟩ := ih hm
            exact ⟨List.mem_cons_of_mem _ hword, hlead, htrail⟩

/-- A marked word is a word with marks. -/
theorem of_mem_markedWords {mode : TextMode} {ws : List (List Char)} {m : Marked}
    (hm : m ∈ markedWords mode ws) :
    m.word ∈ ws ∧ (∀ c ∈ m.lead, c ∈ wordMarks) ∧ ∀ c ∈ m.trail, c ∈ wordMarks := by
  have hbare : ∀ (ws : List (List Char)), m ∈ ws.map bare →
      m.word ∈ ws ∧ (∀ c ∈ m.lead, c ∈ wordMarks) ∧ ∀ c ∈ m.trail, c ∈ wordMarks := by
    intro ws hm
    obtain ⟨w, hw, rfl⟩ := List.mem_map.mp hm
    exact ⟨hw, by simp [bare], by simp [bare]⟩
  cases mode with
  | exact => exact hbare ws hm
  | starts =>
      obtain ⟨hword, hlead, htrail⟩ := of_mem_lastMarked hm
      exact ⟨hword, by simp [hlead], htrail⟩
  | ends =>
      cases ws with
      | nil => cases hm
      | cons w rest =>
          rcases List.mem_cons.mp hm with rfl | hm
          · exact ⟨List.mem_cons_self, by simp [wordMarks], by simp⟩
          · obtain ⟨hword, hmarks⟩ := hbare rest hm
            exact ⟨List.mem_cons_of_mem _ hword, hmarks⟩
  | contains =>
      obtain ⟨w, hw, rfl⟩ := List.mem_map.mp hm
      exact ⟨hw, by simp [wordMarks], by simp [wordMarks]⟩
  | fuzzy =>
      obtain ⟨w, hw, rfl⟩ := List.mem_map.mp hm
      exact ⟨hw, by simp [wordMarks], by simp [wordMarks]⟩

theorem mem_escape {special s : List Char} {c : Char} (hc : c ∈ escape special.contains s) :
    c = '\\' ∨ c ∈ s := by
  obtain ⟨d, hd, hcd⟩ := List.mem_flatMap.mp hc
  split at hcd
  · rcases List.mem_cons.mp hcd with rfl | hcd
    · exact .inl rfl
    · exact .inr (List.mem_singleton.mp hcd ▸ hd)
  · exact .inr (List.mem_singleton.mp hcd ▸ hd)

/-- The marked words of a pattern are valid, and none is empty. -/
theorem isValid_markedWords {mode : TextMode} {s : List Char} {m : Marked}
    (hm : m ∈ markedWords mode (words s)) :
    m.IsValid textSpecial wordMarks [' ', ')', '|'] ∧ m.word ≠ [] := by
  obtain ⟨hword, hlead, htrail⟩ := of_mem_markedWords hm
  obtain ⟨hne, hbreak⟩ := Text.of_mem_pieces hword
  refine ⟨⟨hlead, ?_, htrail, fun h => absurd h hne⟩, hne⟩
  intro c hc
  refine escapable_of_stops (by decide) fun hstop => ?_
  -- of the stops only the blank is not escaped, and words have none
  have hstops : ∀ c ∈ wordMarks ++ [' ', ')', '|'], c ∈ textSpecial ∨ c = ' ' := by
    simp [wordMarks, textSpecial]
  rcases hstops c hstop with h | rfl
  · exact h
  · exact absurd (hbreak ' ' hc) (by decide)

theorem blank_not_mem_write {mode : TextMode} {s : List Char} {m : Marked}
    (hm : m ∈ markedWords mode (words s)) : ' ' ∉ m.write textSpecial := by
  obtain ⟨hword, hlead, htrail⟩ := of_mem_markedWords hm
  obtain ⟨_, hbreak⟩ := Text.of_mem_pieces hword
  have hmark : ' ' ∉ wordMarks := by decide
  intro hblank
  rcases List.mem_append.mp hblank with hblank | hblank
  · rcases List.mem_append.mp hblank with hblank | hblank
    · exact hmark (hlead ' ' (Option.mem_toList.mp hblank))
    · rcases mem_escape hblank with h | h
      · exact absurd h (by decide)
      · exact absurd (hbreak ' ' h) (by decide)
  · exact hmark (htrail ' ' (Option.mem_toList.mp hblank))

/-- A text literal is written as its comparand. -/
theorem write_textComparand (mode : TextMode) (s : List Char) :
    (textComparand mode s).write = textOperand mode s := by
  by_cases hmode : mode = .exact
  · subst hmode
    rfl
  · unfold textComparand textOperand
    rw [if_neg hmode, textPattern_eq hmode]
    have hblank : ∀ m ∈ markedWords mode (words s), ' ' ∉ m.write textSpecial :=
      fun m => blank_not_mem_write
    match hwords : markedWords mode (words s), hblank with
    | [], _ => simp [ofWords, joinWords, Comparand.write, Marked.write, escape]
    | [m], hblank =>
        have hno := hblank m List.mem_cons_self
        simp [ofWords, joinWords, Comparand.write, hno]
    | m :: m' :: rest, _ => simp [ofWords, joinWords, Comparand.write, hmode]

theorem isValid_textComparand (mode : TextMode) (s : List Char) :
    (textComparand mode s).IsValid := by
  unfold textComparand
  split
  · trivial
  · have hvalid : ∀ m ∈ markedWords mode (words s),
        m.IsValid textSpecial wordMarks [' ', ')', '|'] ∧ m.word ≠ [] :=
      fun m => isValid_markedWords
    match markedWords mode (words s), hvalid with
    | [], _ => exact ⟨⟨by simp [wordMarks], by simp, by simp, fun _ => rfl⟩, by simp⟩
    | [m], hvalid =>
        obtain ⟨hm, hne⟩ := hvalid m List.mem_cons_self
        exact ⟨hm, fun h => absurd h hne⟩
    | m :: m' :: rest, hvalid => exact ⟨List.cons_ne_nil _ _, fun m hm => (hvalid m hm).1⟩

theorem ofWords_inj {xs ys : List Marked} (hx : ∀ m ∈ xs, m.word ≠ [])
    (hy : ∀ m ∈ ys, m.word ≠ []) (h : ofWords xs = ofWords ys) : xs = ys := by
  match xs, ys with
  | [], [] => rfl
  | [m], [m'] => rw [Comparand.word.inj h]
  | _ :: _ :: _, _ :: _ :: _ => exact Comparand.words.inj h
  | [], [m'] =>
      have hm := hy m' List.mem_cons_self
      exact absurd (Comparand.word.inj h ▸ rfl) hm
  | [m], [] =>
      have hm := hx m List.mem_cons_self
      exact absurd ((Comparand.word.inj h).symm ▸ rfl) hm
  | [], _ :: _ :: _ => cases h
  | _ :: _ :: _, [] => cases h
  | [_], _ :: _ :: _ => cases h
  | _ :: _ :: _, [_] => cases h

/-- The marks do not change the words. -/
theorem map_word_markedWords (mode : TextMode) (ws : List (List Char)) :
    (markedWords mode ws).map Marked.word = ws := by
  have hmarked : ∀ (mark : List Char → Marked) (ws : List (List Char)),
      (∀ w, (mark w).word = w) → (ws.map mark).map Marked.word = ws := by
    intro mark ws hmark
    rw [List.map_map]
    exact (List.map_congr_left fun w _ => hmark w).trans (List.map_id ws)
  have hlast : ∀ ws : List (List Char), (lastMarked ws).map Marked.word = ws := by
    intro ws
    induction ws with
    | nil => rfl
    | cons w rest ih =>
        cases rest with
        | nil => rfl
        | cons v rest => rw [lastMarked, List.map_cons, ih]; rfl; simp
  cases mode with
  | exact => exact hmarked _ ws fun _ => rfl
  | starts => exact hlast ws
  | ends =>
      cases ws with
      | nil => rfl
      | cons w rest => rw [markedWords, List.map_cons, hmarked _ rest fun _ => rfl]
  | contains => exact hmarked _ ws fun _ => rfl
  | fuzzy => exact hmarked _ ws fun _ => rfl

/-- The first word tells the mode by its marks. -/
theorem mode_of_markedWords {mode mode' : TextMode} (hmode : mode ≠ .exact)
    (hmode' : mode' ≠ .exact) {w : List Char} {rest : List (List Char)}
    (h : markedWords mode (w :: rest) = markedWords mode' (w :: rest)) : mode = mode' := by
  have hfirst : ∀ rest, ∃ trail others, lastMarked (w :: rest) = ⟨none, w, trail⟩ :: others := by
    intro rest
    cases rest with
    | nil => exact ⟨_, _, rfl⟩
    | cons v rest => exact ⟨_, _, rfl⟩
  obtain ⟨trail, others, hstarts⟩ := hfirst rest
  cases mode <;> cases mode' <;> simp [markedWords, hstarts] at h hmode hmode' ⊢

/-- The comparand of a pattern tells its words and their marks. -/
theorem markedWords_of_comparand {mode mode' : TextMode} {s t : List Char} (hmode : mode ≠ .exact)
    (hmode' : mode' ≠ .exact) (h : textComparand mode s = textComparand mode' t) :
    markedWords mode (words s) = markedWords mode' (words t) ∧ words s = words t := by
  rw [textComparand, textComparand, if_neg hmode, if_neg hmode'] at h
  have hmarked := ofWords_inj (fun m hm => (isValid_markedWords hm).2)
    (fun m hm => (isValid_markedWords hm).2) h
  refine ⟨hmarked, ?_⟩
  rw [← map_word_markedWords mode (words s), hmarked, map_word_markedWords]

/-- Text literals that are written alike match alike. -/
theorem textMatches_of_comparand {mode mode' : TextMode} {s t : List Char}
    (h : textComparand mode s = textComparand mode' t) (text : List Char) :
    textMatches mode s text = textMatches mode' t text := by
  have hphrase : ∀ (s : List Char) (ws : List Marked), Comparand.phrase s ≠ ofWords ws := by
    intro s ws
    match ws with
    | [] => simp [ofWords]
    | [w] => simp [ofWords]
    | _ :: _ :: _ => simp [ofWords]
  by_cases hmode : mode = .exact
  · rw [textComparand, if_pos hmode, textComparand] at h
    by_cases hmode' : mode' = .exact
    · rw [if_pos hmode'] at h
      rw [hmode, hmode', Comparand.phrase.inj h]
    · rw [if_neg hmode'] at h
      exact absurd h (hphrase _ _)
  · by_cases hmode' : mode' = .exact
    · rw [textComparand, if_neg hmode, textComparand, if_pos hmode'] at h
      exact absurd h.symm (hphrase _ _)
    · obtain ⟨hmarked, hwords⟩ := markedWords_of_comparand hmode hmode' h
      rw [← hwords] at hmarked
      -- the words agree; without any both patterns match everything, otherwise the marks tell
      -- the mode
      cases hcut : words s with
      | nil =>
          have hnone : ∀ s : List Char, words s = [] → Matching.words s = [] := by
            intro s hs
            rw [words_eq_flatMap, hs]
            rfl
          unfold textMatches
          rw [hnone s hcut, hnone t (hwords ▸ hcut), bne_iff_ne.mpr hmode, bne_iff_ne.mpr hmode']
          rfl
      | cons w rest =>
          rw [hcut] at hmarked
          rw [mode_of_markedWords hmode hmode' hmarked]
          exact textMatches_of_words hwords

/-! ## Tags -/

/-- A tag with the marks of its mode. -/
def markedTag (mode : TagMode) (s : List Char) : Marked :=
  match mode with
  | .exact => ⟨none, s, none⟩
  | .starts => ⟨none, s, some '*'⟩
  | .ends => ⟨some '*', s, none⟩
  | .contains => ⟨some '*', s, some '*'⟩

theorem write_markedTag (mode : TagMode) (s : List Char) :
    (markedTag mode s).write tagSpecial = tagPattern mode s := by
  cases mode with
  | exact => exact List.append_nil _
  | starts => rfl
  | ends => exact List.append_nil _
  | contains => rfl

/-- A tag is valid, unless it is an empty pattern. -/
theorem isValid_markedTag {mode : TagMode} {s : List Char} (h : mode = .exact ∨ s ≠ []) :
    (markedTag mode s).IsValid tagSpecial tagMarks ['|', '\x7d'] := by
  have hword : ∀ c ∈ s, Escapable tagSpecial (tagMarks ++ ['|', '\x7d']) c := by
    intro c _
    have hstops : ∀ c ∈ tagMarks ++ ['|', '\x7d'], c ∈ tagSpecial := by
      simp [tagMarks, tagSpecial]
    exact escapable_of_stops (by decide) (hstops c)
  cases mode with
  | exact => exact ⟨by simp [markedTag], hword, by simp [markedTag], fun _ => rfl⟩
  | starts =>
      have hne := h.resolve_left (by decide)
      exact ⟨by simp [markedTag], hword, by simp [markedTag, tagMarks], fun h => absurd h hne⟩
  | ends => exact ⟨by simp [markedTag, tagMarks], hword, by simp [markedTag], fun _ => rfl⟩
  | contains =>
      have hne := h.resolve_left (by decide)
      exact ⟨by simp [markedTag, tagMarks], hword, by simp [markedTag, tagMarks],
        fun h => absurd h hne⟩

theorem markedTag_inj {mode mode' : TagMode} {s t : List Char}
    (h : markedTag mode s = markedTag mode' t) : mode = mode' ∧ s = t := by
  cases mode <;> cases mode' <;> simp_all [markedTag]

/-! ## Ranges -/

/-- Written numbers stand in brackets: they have no blank and no bracket in them. -/
theorem bracket_of_isTextChar {c : Char} (hc : Double.isTextChar c = true) : c ∉ [' ', ']'] := by
  intro hmem
  have hstops : ∀ c ∈ [' ', ']'], Double.isTextChar c = false := by
    simp [Double.isTextChar, Number.isDigit]
  rw [hstops c hmem] at hc
  cases hc

theorem bracket_numberText (x : Double) : ∀ c ∈ numberText x, c ∉ [' ', ']'] :=
  fun c hc => bracket_of_isTextChar (Double.isTextChar_numberText x c hc)

theorem bracket_lowerBound (b : Bound) : ∀ c ∈ lowerBound b, c ∉ [' ', ']'] := by
  cases b with
  | unbounded => simp [lowerBound]
  | inclusive x => exact bracket_numberText x
  | exclusive x =>
      intro c hc
      rcases List.mem_cons.mp hc with rfl | hc
      · decide
      · exact bracket_numberText x c hc

/-- The text of a number does not begin with a parenthesis. -/
theorem numberText_ne_open (x : Double) (s : List Char) : numberText x ≠ '(' :: s := by
  intro h
  have hopen := Double.isTextChar_numberText x '(' (h ▸ List.mem_cons_self)
  exact absurd hopen (by decide)

/-- An end of a range; no end is one at a limit. -/
def endAt (limit : Double) : Bound → Bound
  | .unbounded => .inclusive limit
  | b => b

/-- No lower end is written like one at negative infinity. -/
theorem lowerBound_endAt (b : Bound) :
    lowerBound (endAt (Double.infinite true) b) = lowerBound b := by
  cases b with
  | unbounded =>
      show numberText (Double.infinite true) = ['-', 'i', 'n', 'f']
      decide
  | inclusive x => rfl
  | exclusive x => rfl

/-- Ends are written alike on both sides, and no upper end like one at infinity. -/
theorem upperBound_eq (b : Bound) :
    upperBound b = lowerBound (endAt (Double.infinite false) b) := by
  cases b with
  | unbounded =>
      show ['+', 'i', 'n', 'f'] = numberText (Double.infinite false)
      decide
  | inclusive x => rfl
  | exclusive x => rfl

theorem bracket_upperBound (b : Bound) : ∀ c ∈ upperBound b, c ∉ [' ', ']'] := by
  rw [upperBound_eq]
  exact bracket_lowerBound _

/-- Ends that are written alike are the same, no end being one at the limit. -/
theorem endAt_inj {limit : Double} (hlimit : limit.isNaN = false) {a b : Bound} (ha : a.IsNumber)
    (hb : b.IsNumber) (h : lowerBound (endAt limit a) = lowerBound (endAt limit b)) :
    endAt limit a = endAt limit b := by
  have hends : ∀ b : Bound, b.IsNumber →
      ∃ y : Double, y.isNaN = false ∧
        (endAt limit b = .inclusive y ∨ endAt limit b = .exclusive y) := by
    intro b hb
    cases b with
    | unbounded => exact ⟨limit, hlimit, .inl rfl⟩
    | inclusive y => exact ⟨y, hb, .inl rfl⟩
    | exclusive y => exact ⟨y, hb, .inr rfl⟩
  obtain ⟨y, hy, hya⟩ := hends a ha
  obtain ⟨z, hz, hzb⟩ := hends b hb
  rcases hya with hya | hya
  · rcases hzb with hzb | hzb
    · rw [hya, hzb] at h ⊢
      rw [numberText_inj hy hz h]
    · rw [hya, hzb] at h
      exact absurd h (numberText_ne_open y _)
  · rcases hzb with hzb | hzb
    · rw [hya, hzb] at h
      exact absurd h.symm (numberText_ne_open z _)
    · rw [hya, hzb] at h ⊢
      rw [numberText_inj hy hz (List.cons.inj h).2]

/-- Numbers lie between the infinities. -/
theorem infinite_le_infinite {x : Double} (hx : x.isNaN = false) :
    (Double.infinite true).le x = true ∧ x.le (Double.infinite false) = true := by
  have hfirst : (Double.infinite true).isNaN = false ∧
      (Double.infinite true).rank = -(BinaryFormat.binary64.infinity : Int) := by decide
  have hlast : (Double.infinite false).isNaN = false ∧
      (Double.infinite false).rank = (BinaryFormat.binary64.infinity : Int) := by decide
  have hordinal : x.ordinal ≤ BinaryFormat.binary64.infinity :=
    Nat.le_of_not_lt (of_decide_eq_false hx)
  have hrank : -(BinaryFormat.binary64.infinity : Int) ≤ x.rank ∧
      x.rank ≤ BinaryFormat.binary64.infinity := by
    unfold Double.rank
    split <;> omega
  constructor
  · rw [Double.le, hfirst.1, hfirst.2, hx, decide_eq_true hrank.1]
    rfl
  · rw [Double.le, hlast.1, hlast.2, hx, decide_eq_true hrank.2]
    rfl

theorem admitsAbove_endAt (b : Bound) {x : Double} (hx : x.isNaN = false) :
    (endAt (Double.infinite true) b).admitsAbove x = b.admitsAbove x := by
  cases b with
  | unbounded => exact (infinite_le_infinite hx).1
  | inclusive y => rfl
  | exclusive y => rfl

theorem admitsBelow_endAt (b : Bound) {x : Double} (hx : x.isNaN = false) :
    (endAt (Double.infinite false) b).admitsBelow x = b.admitsBelow x := by
  cases b with
  | unbounded => exact (infinite_le_infinite hx).2
  | inclusive y => rfl
  | exclusive y => rfl

/-- What is not a number lies in no range that has an end. -/
theorem not_contains_of_isNaN {r : NumericRange} (hr : r.IsEncoded) {x : Double}
    (hx : x.isNaN = true) : r.contains x = false := by
  unfold NumericRange.contains
  cases hlower : r.lower with
  | unbounded =>
      cases hupper : r.upper with
      | unbounded => exact absurd hupper (hr.bounded hlower)
      | inclusive y => simp [Bound.admitsBelow, Double.le, hx]
      | exclusive y => simp [Bound.admitsBelow, Double.lt, hx]
  | inclusive y => simp [Bound.admitsAbove, Double.le, hx]
  | exclusive y => simp [Bound.admitsAbove, Double.lt, hx]

/-- Ranges that are written alike contain the same. -/
theorem contains_of_bounds {r r' : NumericRange} (hr : r.IsEncoded) (hr' : r'.IsEncoded)
    (hlower : lowerBound r.lower = lowerBound r'.lower)
    (hupper : upperBound r.upper = upperBound r'.upper) (x : Double) :
    r.contains x = r'.contains x := by
  cases hx : x.isNaN with
  | true => rw [not_contains_of_isNaN hr hx, not_contains_of_isNaN hr' hx]
  | false =>
      rw [← lowerBound_endAt, ← lowerBound_endAt r'.lower] at hlower
      rw [upperBound_eq, upperBound_eq] at hupper
      have hlower := endAt_inj (by decide) hr.lower hr'.lower hlower
      have hupper := endAt_inj (by decide) hr.upper hr'.upper hupper
      calc r.contains x
          = ((endAt (Double.infinite true) r.lower).admitsAbove x
              && (endAt (Double.infinite false) r.upper).admitsBelow x) := by
            rw [admitsAbove_endAt _ hx, admitsBelow_endAt _ hx]
            rfl
        _ = ((endAt (Double.infinite true) r'.lower).admitsAbove x
              && (endAt (Double.infinite false) r'.upper).admitsBelow x) := by
            rw [hlower, hupper]
        _ = r'.contains x := by
            rw [admitsAbove_endAt _ hx, admitsBelow_endAt _ hx]
            rfl

/-! ## Circles -/

theorem unitWord_inj {u v : GeoUnit} (h : u.word.toList = v.word.toList) : u = v := by
  cases u <;> cases v <;> simp_all [GeoUnit.word]

/-- The parts of a circle, as they are written. -/
def circleItems (c : GeoCircle) : List (List Char) :=
  [c.center.lon.text, c.center.lat.text, numberText c.radius, c.unit.word.toList]

theorem bracket_circleItems (c : GeoCircle) :
    ∀ item ∈ circleItems c, ∀ d ∈ item, d ∉ [' ', ']'] := by
  have htext : ∀ x : Double, ∀ d ∈ x.text, d ∉ [' ', ']'] :=
    fun x d hd => bracket_of_isTextChar (Double.isTextChar_text x d hd)
  have hunit : ∀ u : GeoUnit, ∀ d ∈ u.word.toList, d ∉ [' ', ']'] := by
    intro u
    cases u <;> simp [GeoUnit.word]
  intro item hitem
  simp only [circleItems, List.mem_cons, List.not_mem_nil, or_false] at hitem
  rcases hitem with rfl | rfl | rfl | rfl
  · exact htext _
  · exact htext _
  · exact bracket_numberText _
  · exact hunit _

theorem circleItems_inj {c c' : GeoCircle} (hc : c.IsEncoded) (hc' : c'.IsEncoded)
    (h : circleItems c = circleItems c') : c = c' := by
  simp only [circleItems, List.cons.injEq, and_true] at h
  obtain ⟨hlon, hlat, hradius, hunit⟩ := h
  have hlon := Double.text_inj (isNaN_of_isFinite hc.lon) (isNaN_of_isFinite hc'.lon) hlon
  have hlat := Double.text_inj (isNaN_of_isFinite hc.lat) (isNaN_of_isFinite hc'.lat) hlat
  have hradius :=
    numberText_inj (isNaN_of_isFinite hc.radius) (isNaN_of_isFinite hc'.radius) hradius
  obtain ⟨⟨lon, lat⟩, radius, unit⟩ := c
  obtain ⟨⟨lon', lat'⟩, radius', unit'⟩ := c'
  cases hlon
  cases hlat
  cases hradius
  cases unitWord_inj hunit
  rfl

/-! ## Atoms -/

/-- A literal on a key in the grammar. -/
def atom (key : List Char) : Literal → Atom
  | .text mode value => .field key (textComparand mode value.toList)
  | .tag mode value => .field key (.tags [markedTag mode value.toList])
  | .numeric range => .field key (.bracket [lowerBound range.lower, upperBound range.upper])
  | .geo circle => .field key (.bracket (circleItems circle))
  | .missing => .missing key

theorem write_atom (key : String) (l : Literal) : (atom key.toList l).write = term key l := by
  cases l with
  | text mode value =>
      show fieldRef key.toList ++ ':' :: (textComparand mode value.toList).write = _
      rw [write_textComparand]
      rfl
  | tag mode value =>
      show fieldRef key.toList ++ ':' :: tagSet [(markedTag mode value.toList).write tagSpecial] = _
      rw [write_markedTag]
      rfl
  | numeric range =>
      show fieldRef key.toList ++ ':' :: ('[' :: [' '].intercalate
          [lowerBound range.lower, upperBound range.upper] ++ [']'])
        = fieldRef key.toList ++ ':' :: '[' :: lowerBound range.lower ++
          ' ' :: upperBound range.upper ++ [']']
      simp
  | geo circle =>
      show fieldRef key.toList ++ ':' :: ('[' :: [' '].intercalate (circleItems circle) ++ [']'])
        = fieldRef key.toList ++ ':' :: '[' :: circle.center.lon.text ++
          ' ' :: circle.center.lat.text ++ ' ' :: numberText circle.radius ++
          ' ' :: circle.unit.word.toList ++ [']']
      simp [circleItems]
  | missing => rfl

theorem isValid_atom {key : List Char} (hkey : Atom.IsKey key) {l : Literal} (hl : l.IsEncoded) :
    (atom key l).IsValid := by
  cases l with
  | text mode value => exact ⟨hkey, isValid_textComparand _ _⟩
  | tag mode value =>
      have hvalue : mode = .exact ∨ value.toList ≠ [] :=
        hl.imp_right fun hne hnil => hne (String.toList_eq_nil_iff.mp hnil)
      refine ⟨hkey, List.cons_ne_nil _ _, fun t ht => ?_⟩
      rw [List.mem_singleton.mp ht]
      exact isValid_markedTag hvalue
  | numeric range =>
      refine ⟨hkey, List.cons_ne_nil _ _, fun item hitem => ?_⟩
      rcases List.mem_cons.mp hitem with rfl | hitem
      · exact bracket_lowerBound _
      · rw [List.mem_singleton.mp hitem]
        exact bracket_upperBound _
  | geo circle => exact ⟨hkey, List.cons_ne_nil _ _, bracket_circleItems circle⟩
  | missing => exact hkey

/-- A text literal is neither a set of tags nor a bracket. -/
theorem kind_textComparand (mode : TextMode) (s : List Char) :
    (textComparand mode s).kind ≠ 1 ∧ (textComparand mode s).kind ≠ 2 := by
  unfold textComparand
  split
  · simp [Comparand.kind]
  · match markedWords mode (words s) with
    | [] => simp [ofWords, Comparand.kind]
    | [w] => simp [ofWords, Comparand.kind]
    | _ :: _ :: _ => simp [ofWords, Comparand.kind]

/-! ## Literals of an atom -/

theorem key_of_atom {key key' : List Char} {l l' : Literal} (h : atom key l = atom key' l') :
    key = key' := by
  cases l <;> cases l' <;> first | exact (Atom.field.inj h).1 | exact Atom.missing.inj h | cases h

/-- The comparand of a text is the one of a text only. -/
theorem atom_eq_text {key key' : List Char} {l : Literal} {mode : TextMode} {s : List Char}
    (h : atom key l = .field key' (textComparand mode s)) :
    ∃ mode' value, l = .text mode' value ∧
      textComparand mode' value.toList = textComparand mode s := by
  obtain ⟨htags, hbracket⟩ := kind_textComparand mode s
  cases l with
  | text mode' value => exact ⟨mode', value, rfl, (Atom.field.inj h).2⟩
  | tag mode' value => exact absurd (congrArg Comparand.kind (Atom.field.inj h).2).symm htags
  | numeric range => exact absurd (congrArg Comparand.kind (Atom.field.inj h).2).symm hbracket
  | geo circle => exact absurd (congrArg Comparand.kind (Atom.field.inj h).2).symm hbracket
  | missing => cases h

/-- A set of tags is a single tag. -/
theorem atom_eq_tags {key key' : List Char} {l : Literal} {ts : List Marked}
    (h : atom key l = .field key' (.tags ts)) :
    ∃ mode value, l = .tag mode value ∧ [markedTag mode value.toList] = ts := by
  cases l with
  | text mode value =>
      obtain ⟨htags, _⟩ := kind_textComparand mode value.toList
      exact absurd (congrArg Comparand.kind (Atom.field.inj h).2) htags
  | tag mode value => exact ⟨mode, value, rfl, Comparand.tags.inj (Atom.field.inj h).2⟩
  | numeric range => cases (Atom.field.inj h).2
  | geo circle => cases (Atom.field.inj h).2
  | missing => cases h

/-- A bracket of two items is a range, one of four a circle. -/
theorem atom_eq_bracket {key key' : List Char} {l : Literal} {items : List (List Char)}
    (h : atom key l = .field key' (.bracket items)) :
    (∃ range, l = .numeric range ∧ [lowerBound range.lower, upperBound range.upper] = items) ∨
      ∃ circle, l = .geo circle ∧ circleItems circle = items := by
  cases l with
  | text mode value =>
      obtain ⟨_, hbracket⟩ := kind_textComparand mode value.toList
      exact absurd (congrArg Comparand.kind (Atom.field.inj h).2) hbracket
  | tag mode value => cases (Atom.field.inj h).2
  | numeric range => exact .inl ⟨range, rfl, Comparand.bracket.inj (Atom.field.inj h).2⟩
  | geo circle => exact .inr ⟨circle, rfl, Comparand.bracket.inj (Atom.field.inj h).2⟩
  | missing => cases h

/-- Literals that are the same atom are met by the same documents. -/
theorem termMatches_of_atom {key key' : String} {l l' : Literal} (hl : l.IsEncoded)
    (hl' : l'.IsEncoded) (h : atom key.toList l = atom key'.toList l') (d : Datum) :
    termMatches key l d = termMatches key' l' d := by
  have hmatches : ∀ stored, literalMatches l stored = literalMatches l' stored := by
    cases l' with
    | text mode value =>
        obtain ⟨mode', value', rfl, hcomparand⟩ := atom_eq_text h
        intro stored
        simp only [literalMatches, textMatches_of_comparand hcomparand]
    | tag mode value =>
        obtain ⟨mode', value', rfl, htags⟩ := atom_eq_tags h
        obtain ⟨rfl, hvalue⟩ := markedTag_inj (List.cons.inj htags).1
        cases String.toList_inj.mp hvalue
        exact fun _ => rfl
    | numeric range =>
        rcases atom_eq_bracket h with ⟨range', rfl, hitems⟩ | ⟨circle, rfl, hitems⟩
        · obtain ⟨hlower, hupper⟩ := List.cons.inj hitems
          have hcontains : range'.contains = range.contains :=
            funext (contains_of_bounds hl hl' hlower (List.cons.inj hupper).1)
          intro stored
          simp only [literalMatches, hcontains]
        · simp [circleItems] at hitems
    | geo circle =>
        rcases atom_eq_bracket h with ⟨range, rfl, hitems⟩ | ⟨circle', rfl, hitems⟩
        · simp [circleItems] at hitems
        · cases circleItems_inj hl hl' hitems
          exact fun _ => rfl
    | missing =>
        cases l with
        | missing => exact fun _ => rfl
        | _ => cases h
  rw [termMatches, termMatches, String.toList_inj.mp (key_of_atom h), hmatches]

end IndexQuery.QueryText
