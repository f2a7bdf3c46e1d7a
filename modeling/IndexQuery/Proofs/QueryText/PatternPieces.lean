import IndexQuery.Proofs.QueryText.Literals
import IndexQuery.Proofs.QueryText.Unescaping
set_option autoImplicit false

/-! # Text patterns decode to their words

The literal of a text pattern with words is cut at its blanks into one piece for each word. Where
the mode puts marks depends on the place of the word only (`leadAt`, `trailAt`); without its marks a
piece unescapes to its word, and the marks are all the asterisks and percent signs that are in no
escape pair (`IsPiece`). The marks tell the modes apart, and the literal is put in parentheses
exactly when it has a blank, that is, when there are several words (`pattern_decodes_to_words`). -/

namespace IndexQuery.QueryText

/-! ## Places of marks -/

/-- The mark in front of the word at a place. -/
def leadAt (mode : TextMode) (place : Nat) : Option Char :=
  match mode with
  | .exact => none
  | .starts => none
  | .ends => if place = 0 then some '*' else none
  | .contains => some '*'
  | .fuzzy => some '%'

/-- The mark behind the word at a place, of the given number of words. -/
def trailAt (mode : TextMode) (place count : Nat) : Option Char :=
  match mode with
  | .exact => none
  | .starts => if place + 1 = count then some '*' else none
  | .ends => none
  | .contains => some '*'
  | .fuzzy => some '%'

/-- The word at a place with the marks of a mode. -/
def markedAt (mode : TextMode) (count place : Nat) (w : List Char) : Marked :=
  ⟨leadAt mode place, w, trailAt mode place count⟩

theorem mapIdx_eq_map {α β : Type} {f : Nat → α → β} {g : α → β} (h : ∀ i x, f i x = g x)
    (xs : List α) : xs.mapIdx f = xs.map g := by
  apply List.ext_getElem
  · simp
  · intro i _ _
    simp [h]

theorem lastMarked_eq_mapIdx (ws : List (List Char)) :
    lastMarked ws = ws.mapIdx (markedAt .starts ws.length) := by
  induction ws with
  | nil => rfl
  | cons w rest ih =>
      cases rest with
      | nil => rfl
      | cons v rest =>
          have hplaces : ∀ i x, markedAt .starts (w :: v :: rest).length (i + 1) x
              = markedAt .starts (v :: rest).length i x := by
            intro i x
            simp [markedAt, leadAt, trailAt]
          rw [lastMarked, List.mapIdx_cons, ih, funext₂ hplaces]
          · simp [markedAt, leadAt, trailAt, bare]
          · simp

/-- The marks of a word depend on its place. -/
theorem markedWords_eq_mapIdx (mode : TextMode) (ws : List (List Char)) :
    markedWords mode ws = ws.mapIdx (markedAt mode ws.length) := by
  cases mode with
  | starts => exact lastMarked_eq_mapIdx ws
  | ends =>
      cases ws with
      | nil => rfl
      | cons w rest =>
          rw [markedWords, List.mapIdx_cons]
          refine congrArg (List.cons _) (mapIdx_eq_map ?_ rest).symm
          exact fun _ _ => rfl
  | _ =>
      refine (mapIdx_eq_map ?_ ws).symm
      exact fun _ _ => rfl

/-! ## Pieces -/

/-- A piece of a literal stands for a word: between its marks it has a body that unescapes to the
word, and of the asterisks and percent signs only the marks are in no pair. -/
def IsPiece (lead trail : Option Char) (word piece : List Char) : Prop :=
  ∃ body, piece = lead.toList ++ body ++ trail.toList ∧ unescape body = word ∧
    unpaired piece = lead.toList ++ unpaired body ++ trail.toList ∧
    ∀ c ∈ unpaired body, c ∉ wordMarks

section Marks

variable {m : Marked}

theorem isWhole_mark {mark : Option Char} (hmark : ∀ c ∈ mark, c ∈ wordMarks) :
    IsWhole mark.toList := by
  have hslash : '\\' ∉ wordMarks := by decide
  exact isWhole_optional fun c hc h => hslash (h ▸ hmark c hc)

theorem isWhole_write (hlead : ∀ c ∈ m.lead, c ∈ wordMarks)
    (htrail : ∀ c ∈ m.trail, c ∈ wordMarks) : IsWhole (m.write textSpecial) := by
  have hslash : '\\' ∈ textSpecial := by decide
  exact ((isWhole_mark hlead).append (isWhole_escape hslash m.word)).append (isWhole_mark htrail)

theorem unpaired_mark {mark : Option Char} (hmark : ∀ c ∈ mark, c ∈ wordMarks) :
    unpaired mark.toList = mark.toList := by
  have hslash : '\\' ∉ wordMarks := by decide
  cases mark with
  | none => rfl
  | some c =>
      have hplain : c ≠ '\\' := fun h => hslash (h ▸ hmark c rfl)
      show unpaired [c] = [c]
      rw [unpaired_eq, symbols_cons hplain]
      rfl

/-- The marks are in no pair with the word. -/
theorem unpaired_write (hlead : ∀ c ∈ m.lead, c ∈ wordMarks)
    (htrail : ∀ c ∈ m.trail, c ∈ wordMarks) :
    unpaired (m.write textSpecial)
      = m.lead.toList ++ unpaired (escape textSpecial.contains m.word) ++ m.trail.toList := by
  have hslash : '\\' ∈ textSpecial := by decide
  have hword := isWhole_escape hslash m.word
  rw [Marked.write, List.append_assoc, (isWhole_mark hlead).unpaired_append,
    hword.unpaired_append, unpaired_mark hlead, unpaired_mark htrail, List.append_assoc]

theorem isPiece_write (hlead : ∀ c ∈ m.lead, c ∈ wordMarks)
    (htrail : ∀ c ∈ m.trail, c ∈ wordMarks) :
    IsPiece m.lead m.trail m.word (m.write textSpecial) := by
  have hslash : '\\' ∈ textSpecial := by decide
  have hmarks : ∀ c ∈ wordMarks, c ∈ textSpecial := by simp [wordMarks, textSpecial]
  refine ⟨escape textSpecial.contains m.word, rfl, unescape_escape hslash m.word,
    unpaired_write hlead htrail, ?_⟩
  intro c hc hmark
  exact alone_not_mem_symbols_escape hslash m.word (hmarks c hmark) (mem_unpaired_iff.mp hc)

end Marks

theorem unpaired_intercalate {ms : List Marked}
    (h : ∀ m ∈ ms, (∀ c ∈ m.lead, c ∈ wordMarks) ∧ ∀ c ∈ m.trail, c ∈ wordMarks) :
    unpaired ([' '].intercalate (ms.map (Marked.write textSpecial)))
      = [' '].intercalate ((ms.map (Marked.write textSpecial)).map unpaired) := by
  apply unpaired_joined (by decide)
  intro piece hpiece
  obtain ⟨m, hm, rfl⟩ := List.mem_map.mp hpiece
  exact isWhole_write (h m hm).1 (h m hm).2

/-! ## Literals with words -/

section Pattern

variable {mode mode' : TextMode} {s t : List Char}

theorem markedWords_ne_nil (hwords : words s ≠ []) : markedWords mode (words s) ≠ [] := by
  intro hnil
  have hmap := map_word_markedWords mode (words s)
  rw [hnil] at hmap
  exact hwords hmap.symm

theorem textPattern_eq_intercalate (hmode : mode ≠ .exact) (hwords : words s ≠ []) :
    textPattern mode s
      = [' '].intercalate ((markedWords mode (words s)).map (Marked.write textSpecial)) := by
  have hne : (markedWords mode (words s)).map (Marked.write textSpecial) ≠ [] := by
    simpa using markedWords_ne_nil hwords
  rw [textPattern_eq hmode, joinWords, if_neg]
  simpa using hne

/-- The pieces between the blanks are the marked words. -/
theorem splitOn_textPattern (hmode : mode ≠ .exact) (hwords : words s ≠ []) :
    (textPattern mode s).splitOn ' '
      = (markedWords mode (words s)).map (Marked.write textSpecial) := by
  rw [textPattern_eq_intercalate hmode hwords]
  apply List.splitOn_intercalate
  · intro piece hpiece
    obtain ⟨m, hm, rfl⟩ := List.mem_map.mp hpiece
    exact blank_not_mem_write hm
  · simpa using markedWords_ne_nil hwords

theorem length_markedWords (mode : TextMode) (ws : List (List Char)) :
    (markedWords mode ws).length = ws.length := by
  rw [← List.length_map Marked.word, map_word_markedWords]

/-- The words with their marks can be read off the literal, because its comparand can. -/
theorem markedWords_of_textPattern (hmode : mode ≠ .exact) (hmode' : mode' ≠ .exact)
    (h : textPattern mode s = textPattern mode' t) :
    markedWords mode (words s) = markedWords mode' (words t) ∧ words s = words t := by
  have hoperand : textOperand mode s = textOperand mode' t := by
    simp [textOperand, h, hmode, hmode']
  rw [← write_textComparand, ← write_textComparand] at hoperand
  have hcomparand := unambiguous_comparand.eq (isValid_textComparand mode s)
    (isValid_textComparand mode' t) hoperand
  exact markedWords_of_comparand hmode hmode' hcomparand

theorem mode_of_textPattern (hmode : mode ≠ .exact) (hmode' : mode' ≠ .exact)
    (hwords : words s ≠ []) (h : textPattern mode s = textPattern mode' t) : mode = mode' := by
  obtain ⟨hmarked, hsame⟩ := markedWords_of_textPattern hmode hmode' h
  obtain ⟨w, rest, hcut⟩ := List.exists_cons_of_ne_nil hwords
  rw [← hsame, hcut] at hmarked
  exact mode_of_markedWords hmode hmode' hmarked

/-- A literal has a blank if it has several words. -/
theorem blank_mem_textPattern_iff (hmode : mode ≠ .exact) (hwords : words s ≠ []) :
    ' ' ∈ textPattern mode s ↔ 2 ≤ (words s).length := by
  have hblank : ∀ m ∈ markedWords mode (words s), ' ' ∉ m.write textSpecial :=
    fun m => blank_not_mem_write
  rw [textPattern_eq_intercalate hmode hwords, ← length_markedWords mode (words s)]
  match markedWords mode (words s), hblank with
  | [], _ => simp
  | [m], hblank => simpa using hblank m List.mem_cons_self
  | m :: m' :: rest, _ => simp [List.intercalate_cons_cons]

/-- The literal of a pattern with words decodes to the words: it is cut at its blanks into one piece
for each word, in order, and the marks of the mode stand around the words and nowhere else. No other
mode gives the same literal, and parentheses are put around it if there are several words. -/
theorem pattern_decodes_to_words (hmode : mode ≠ .exact) {value : String}
    (hwords : words value.toList ≠ []) :
    ((textPattern mode value.toList).splitOn ' ').length = (words value.toList).length ∧
    (∀ place word, (words value.toList)[place]? = some word →
      ∃ piece, ((textPattern mode value.toList).splitOn ' ')[place]? = some piece ∧
        IsPiece (leadAt mode place) (trailAt mode place (words value.toList).length) word piece) ∧
    unpaired (textPattern mode value.toList)
      = [' '].intercalate (((textPattern mode value.toList).splitOn ' ').map unpaired) ∧
    (∀ mode' value', mode' ≠ .exact →
      textPattern mode' value' = textPattern mode value.toList → mode' = mode) ∧
    ∀ key, term key (.text mode value) = fieldRef key.toList ++ ':' ::
      if 2 ≤ (words value.toList).length then '(' :: textPattern mode value.toList ++ [')']
      else textPattern mode value.toList := by
  have hmarks : ∀ m ∈ markedWords mode (words value.toList),
      (∀ c ∈ m.lead, c ∈ wordMarks) ∧ ∀ c ∈ m.trail, c ∈ wordMarks :=
    fun m hm => (of_mem_markedWords hm).2
  have hsplit := splitOn_textPattern hmode hwords
  refine ⟨?_, ?_, ?_, ?_, ?_⟩
  · rw [hsplit, List.length_map, length_markedWords]
  · intro place word hword
    let m := markedAt mode (words value.toList).length place word
    have hm : (markedWords mode (words value.toList))[place]? = some m := by
      rw [markedWords_eq_mapIdx, List.getElem?_mapIdx, hword]
      rfl
    refine ⟨m.write textSpecial, by rw [hsplit, List.getElem?_map, hm]; rfl, ?_⟩
    obtain ⟨hlead, htrail⟩ := hmarks m (List.mem_of_getElem? hm)
    exact isPiece_write hlead htrail
  · rw [hsplit, textPattern_eq_intercalate hmode hwords]
    exact unpaired_intercalate hmarks
  · intro mode' value' hmode' h
    exact (mode_of_textPattern hmode hmode' hwords h.symm).symm
  · intro key
    have hparentheses : textOperand mode value.toList
        = if 2 ≤ (words value.toList).length then '(' :: textPattern mode value.toList ++ [')']
          else textPattern mode value.toList := by
      simp only [textOperand, blank_mem_textPattern_iff hmode hwords, hmode, ne_eq,
        not_false_eq_true, true_and]
    rw [← hparentheses]
    rfl

/-- Asterisks and percent signs of the words are told from the mark behind them. -/
theorem pattern_decodes_to_words_marks :
    let value := "50%/-a*"
    TextMode.starts ≠ .exact ∧ words value.toList = ["50%".toList, "a*".toList] ∧
      IsPiece none (some '*') "a*".toList "a\\**".toList ∧
      (∀ value', textPattern .contains value' ≠ textPattern .starts value.toList) ∧
      term "discount" (.text .starts value) = "@discount:(50\\% a\\**)".toList := by
  intro value
  have hmode : TextMode.starts ≠ .exact := by decide
  have hcut : words value.toList = ["50%".toList, "a*".toList] := by decide +kernel
  have hwords : words value.toList ≠ [] := by rw [hcut]; exact List.cons_ne_nil _ _
  obtain ⟨-, hpieces, -, hmodes, hterm⟩ := pattern_decodes_to_words hmode hwords
  obtain ⟨piece, hpiece, hmarked⟩ := hpieces 1 "a*".toList (by rw [hcut]; rfl)
  have hlast : ((textPattern .starts value.toList).splitOn ' ')[1]? = some "a\\**".toList := by
    decide +kernel
  rw [hlast] at hpiece
  cases Option.some.inj hpiece
  rw [hcut] at hmarked
  refine ⟨hmode, hcut, hmarked, ?_, ?_⟩
  · intro value' h
    cases hmodes .contains value' (by decide) h
  · rw [hterm, hcut]
    decide +kernel

end Pattern

end IndexQuery.QueryText
