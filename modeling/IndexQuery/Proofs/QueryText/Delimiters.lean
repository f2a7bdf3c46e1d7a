import IndexQuery.Proofs.QueryText.Unescaping
import IndexQuery.QueryText.Rendering
set_option autoImplicit false

/-! # Values between delimiters

A reader of a query finds the end of a phrase or of a tag by looking for the first delimiter that is
in no pair (`spanUnpaired`), and the tags of a set by cutting it at the bars in no pair
(`splitUnpaired`). It passes over a text that is whole and in which no delimiter stands alone
(`IsClear`), and stops at a delimiter behind it, whatever follows. Phrases, tags in every mode and
sets of tags are such texts. So the delimiters that are found are those that were put around and
between the values, and the values can be read back (`values_found_between_delimiters`). -/

namespace IndexQuery.QueryText

/-! ## Looking for delimiters -/

/-- A reader that looks for certain characters passes over every other symbol. -/
def Symbol.isPassed (stop : List Char) : Symbol → Bool
  | alone c => !stop.contains c
  | paired _ => true

/-- The text in front of the first of the characters that is in no pair, and the text from there
on. -/
def spanUnpaired (stop s : List Char) : List Char × List Char :=
  (((symbols s).takeWhile (Symbol.isPassed stop)).flatMap Symbol.write,
    ((symbols s).dropWhile (Symbol.isPassed stop)).flatMap Symbol.write)

/-- The parts of a text between the separators that are in no pair. -/
def splitUnpaired (separator : Char) (s : List Char) : List (List Char) :=
  ((symbols s).splitOn (.alone separator)).map fun part => part.flatMap Symbol.write

/-- No pair begins in the text and ends behind it, and none of the characters stands alone in it. -/
structure IsClear (stop s : List Char) : Prop where
  whole : IsWhole s
  alone_not_mem : ∀ c ∈ stop, .alone c ∉ symbols s

section Clear

variable {stop stop' s t : List Char}

theorem IsClear.mono (hs : IsClear stop s) (hstop : ∀ c ∈ stop', c ∈ stop) : IsClear stop' s :=
  ⟨hs.whole, fun c hc => hs.alone_not_mem c (hstop c hc)⟩

theorem IsClear.append (hs : IsClear stop s) (ht : IsClear stop t) : IsClear stop (s ++ t) := by
  refine ⟨hs.whole.append ht.whole, fun c hc hmem => ?_⟩
  rw [hs.whole t] at hmem
  rcases List.mem_append.mp hmem with hmem | hmem
  · exact hs.alone_not_mem c hc hmem
  · exact ht.alone_not_mem c hc hmem

theorem isClear_nil (stop : List Char) : IsClear stop [] :=
  ⟨isWhole_nil, fun _ _ => List.not_mem_nil⟩

theorem isClear_singleton {c : Char} (hc : c ≠ '\\') (hstop : c ∉ stop) : IsClear stop [c] := by
  refine ⟨isWhole_singleton hc, fun d hd hmem => ?_⟩
  rw [symbols_cons hc, symbols_nil, List.mem_singleton] at hmem
  cases hmem
  exact hstop hd

theorem isClear_escape {special : List Char} (hslash : '\\' ∈ special)
    (hstop : ∀ c ∈ stop, c ∈ special) (s : List Char) :
    IsClear stop (escape special.contains s) :=
  ⟨isWhole_escape hslash s, fun c hc => alone_not_mem_symbols_escape hslash s (hstop c hc)⟩

theorem isClear_joined {separator : Char} (hseparator : IsClear stop [separator])
    {pieces : List (List Char)} (hpieces : ∀ piece ∈ pieces, IsClear stop piece) :
    IsClear stop ([separator].intercalate pieces) := by
  induction pieces with
  | nil => exact isClear_nil stop
  | cons piece pieces ih =>
      have hpiece := hpieces piece List.mem_cons_self
      have hothers := ih fun p hp => hpieces p (List.mem_cons_of_mem _ hp)
      cases pieces with
      | nil => simpa using hpiece
      | cons piece' pieces =>
          rw [List.intercalate_cons_cons]
          exact (hpiece.append hseparator).append hothers

/-- Looking for delimiters passes over a clear text and stops at the one behind it. -/
theorem spanUnpaired_of_isClear (hs : IsClear stop s) {c : Char} (hc : c ∈ stop)
    (hplain : c ≠ '\\') (rest : List Char) :
    spanUnpaired stop (s ++ c :: rest) = (s, c :: rest) := by
  -- the delimiter stands alone, because no pair that begins in the text reaches it
  have hread : symbols (s ++ c :: rest) = symbols s ++ .alone c :: symbols rest := by
    rw [hs.whole, symbols_cons hplain]
  have hpass : ∀ x ∈ symbols s, x.isPassed stop = true := by
    intro x hx
    cases x with
    | alone d =>
        have hd : d ∉ stop := fun hd => hs.alone_not_mem d hd hx
        simpa [Symbol.isPassed] using hd
    | paired d => rfl
  have hhalt : ¬ (Symbol.alone c).isPassed stop = true := by simpa [Symbol.isPassed] using hc
  have hbehind : (Symbol.alone c :: symbols rest).flatMap Symbol.write = c :: rest := by
    rw [← symbols_cons hplain, flatMap_write_symbols]
  rw [spanUnpaired, hread, List.takeWhile_append_of_pos hpass, List.dropWhile_append_of_pos hpass,
    List.takeWhile_cons_of_neg hhalt, List.dropWhile_cons_of_neg hhalt, List.append_nil,
    flatMap_write_symbols, hbehind]

/-- Clear texts are found again between their separators. -/
theorem splitUnpaired_joined {separator : Char} (hplain : separator ≠ '\\')
    {pieces : List (List Char)} (hpieces : ∀ piece ∈ pieces, IsClear [separator] piece)
    (hne : pieces ≠ []) : splitUnpaired separator ([separator].intercalate pieces) = pieces := by
  have hread := symbols_joined hplain fun piece hpiece => (hpieces piece hpiece).whole
  have hparts : ∀ part ∈ pieces.map symbols, Symbol.alone separator ∉ part := by
    intro part hpart
    obtain ⟨piece, hpiece, rfl⟩ := List.mem_map.mp hpart
    exact (hpieces piece hpiece).alone_not_mem separator List.mem_cons_self
  have hwritten : (pieces.map symbols).map (fun part => part.flatMap Symbol.write) = pieces := by
    rw [List.map_map]
    exact List.map_id'' flatMap_write_symbols pieces
  rw [splitUnpaired, hread, List.splitOn_intercalate _ hparts (by simpa using hne), hwritten]

end Clear

/-! ## Escaped values -/

/-- A text stands for a value in front of delimiters: unescaped it is the value, every character
with a meaning is in a pair, and the first delimiter in no pair is the one behind the text. -/
structure StandsFor (special delimiters value s : List Char) : Prop where
  unescape_eq : unescape s = value
  alone_not_mem : ∀ c ∈ special, .alone c ∉ symbols s
  spanUnpaired_eq : ∀ c ∈ delimiters, ∀ rest,
    spanUnpaired delimiters (s ++ c :: rest) = (s, c :: rest)

theorem standsFor_escape {special delimiters : List Char} (hslash : '\\' ∈ special)
    (hdelimiters : ∀ c ∈ delimiters, c ∈ special ∧ c ≠ '\\') (value : List Char) :
    StandsFor special delimiters value (escape special.contains value) where
  unescape_eq := unescape_escape hslash value
  alone_not_mem _ hc := alone_not_mem_symbols_escape hslash value hc
  spanUnpaired_eq c hc rest :=
    spanUnpaired_of_isClear (isClear_escape hslash (fun d hd => (hdelimiters d hd).1) value) hc
      (hdelimiters c hc).2 rest

theorem standsFor_phrase (value : List Char) :
    StandsFor phraseSpecial ['"'] value (escape phraseSpecial.contains value) :=
  standsFor_escape (by decide) (by simp [phraseSpecial]) value

/-- What ends a tag: the bar in front of another tag, or the brace behind the last one. -/
def tagEnds : List Char := ['|', '\x7d']

theorem standsFor_escapeTag (value : List Char) :
    StandsFor tagSpecial tagEnds value (escapeTag value) :=
  standsFor_escape (by decide) (by simp [tagEnds, tagSpecial]) value

theorem isClear_escapeTag (value : List Char) : IsClear tagEnds (escapeTag value) :=
  isClear_escape (by decide) (by simp [tagEnds, tagSpecial]) value

theorem isClear_of_mem_escapedTags {values : List String} {piece : List Char}
    (hpiece : piece ∈ values.map fun value => escapeTag value.toList) : IsClear tagEnds piece := by
  obtain ⟨value, _, rfl⟩ := List.mem_map.mp hpiece
  exact isClear_escapeTag value.toList

/-- The marks of a mode end no tag. -/
theorem isClear_tagPattern (mode : TagMode) (value : List Char) :
    IsClear tagEnds (tagPattern mode value) := by
  have hvalue := isClear_escapeTag value
  have hmark : IsClear tagEnds ['*'] := isClear_singleton (by decide) (by decide)
  cases mode with
  | exact => exact hvalue
  | starts => exact hvalue.append hmark
  | ends => exact hmark.append hvalue
  | contains => exact (hmark.append hvalue).append hmark

/-! ## Literals -/

theorem term_phrase (key value : String) :
    term key (.text .exact value)
      = fieldRef key.toList ++ [':', '"'] ++ escape phraseSpecial.contains value.toList ++ ['"'] := by
  show fieldRef key.toList ++ ':' :: textOperand .exact value.toList = _
  have hoperand : textOperand .exact value.toList = phrase value.toList := by
    simp [textOperand, textPattern]
  rw [hoperand, phrase]
  simp only [List.append_assoc, List.cons_append, List.nil_append]

theorem term_tag (key : String) (mode : TagMode) (value : String) :
    term key (.tag mode value)
      = fieldRef key.toList ++ [':', '\x7b'] ++ tagPattern mode value.toList ++ ['\x7d'] := by
  show fieldRef key.toList ++ ':' :: tagSet [tagPattern mode value.toList] = _
  rw [tagSet, List.intercalate_singleton]
  simp only [List.append_assoc, List.cons_append, List.nil_append]

/-! ## Sets of tags -/

/-- What stands between the braces of a set of tags. -/
def joinedTags (values : List String) : List Char :=
  ['|'].intercalate (values.map fun value => escapeTag value.toList)

theorem mapM_exactTag? (values : List String) :
    (values.map (Literal.tag .exact)).mapM exactTag? = some (values.map String.toList) := by
  induction values with
  | nil => rfl
  | cons value values ih =>
      rw [List.map_cons, List.mapM_cons, ih]
      rfl

/-- Exact tags are written as one set, a single one too. -/
theorem alternatives_exactTags (key : String) {values : List String} (hvalues : values ≠ []) :
    alternatives key (values.map (.tag .exact))
      = fieldRef key.toList ++ [':', '\x7b'] ++ joinedTags values ++ ['\x7d'] := by
  have hset : alternatives key (values.map (.tag .exact))
      = fieldRef key.toList ++ ':' :: tagSet (values.map fun value => escapeTag value.toList) := by
    match values, hvalues with
    | [value], _ => rfl
    | value :: value' :: values, _ =>
        have htags := mapM_exactTag? (value :: value' :: values)
        simp only [List.map_cons] at htags ⊢
        rw [alternatives, htags]
        · simp [Function.comp_def]
        · simp
  rw [hset, tagSet, joinedTags]
  simp

theorem splitUnpaired_joinedTags {values : List String} (hvalues : values ≠ []) :
    splitUnpaired '|' (joinedTags values) = values.map fun value => escapeTag value.toList := by
  refine splitUnpaired_joined (by decide) (fun piece hpiece => ?_) (by simpa using hvalues)
  exact (isClear_of_mem_escapedTags hpiece).mono (by simp [tagEnds])

theorem isClear_joinedTags (values : List String) : IsClear ['\x7d'] (joinedTags values) := by
  refine isClear_joined (isClear_singleton (by decide) (by decide)) fun piece hpiece => ?_
  exact (isClear_of_mem_escapedTags hpiece).mono (by simp [tagEnds])

/-! ## Reading back -/

/-- Escaping is undone by unescaping, and it keeps the delimiters of phrases and tags in pairs: the
first quote, bar or closing brace in no pair is the one that was put behind the value, in every
mode. So the tags of a set are found between its bars, in order, and the brace found behind them is
its own. -/
theorem values_found_between_delimiters (key : String) :
    (∀ value : String,
      StandsFor phraseSpecial ['"'] value.toList (escape phraseSpecial.contains value.toList) ∧
      term key (.text .exact value) = fieldRef key.toList ++ [':', '"'] ++
        escape phraseSpecial.contains value.toList ++ ['"'] ∧
      StandsFor tagSpecial tagEnds value.toList (escapeTag value.toList) ∧
      ∀ mode,
        term key (.tag mode value)
          = fieldRef key.toList ++ [':', '\x7b'] ++ tagPattern mode value.toList ++ ['\x7d'] ∧
        ∀ rest, spanUnpaired tagEnds (tagPattern mode value.toList ++ '\x7d' :: rest)
          = (tagPattern mode value.toList, '\x7d' :: rest)) ∧
    ∀ values : List String, values ≠ [] →
      (∀ outermost, (Tree.union key (values.map (.tag .exact))).text outermost
        = fieldRef key.toList ++ [':', '\x7b'] ++ joinedTags values ++ ['\x7d']) ∧
      (∀ outermost, (Tree.negatedUnion key (values.map (.tag .exact))).text outermost
        = '-' :: fieldRef key.toList ++ [':', '\x7b'] ++ joinedTags values ++ ['\x7d']) ∧
      (∀ rest, spanUnpaired ['\x7d'] (joinedTags values ++ '\x7d' :: rest)
        = (joinedTags values, '\x7d' :: rest)) ∧
      splitUnpaired '|' (joinedTags values) = values.map (fun value => escapeTag value.toList) ∧
      (splitUnpaired '|' (joinedTags values)).map unescape = values.map String.toList := by
  constructor
  · intro value
    refine ⟨standsFor_phrase value.toList, term_phrase key value,
      standsFor_escapeTag value.toList, fun mode => ⟨term_tag key mode value, fun rest => ?_⟩⟩
    exact spanUnpaired_of_isClear (isClear_tagPattern mode value.toList) (by decide) (by decide)
      rest
  · intro values hvalues
    have hset := alternatives_exactTags key hvalues
    have hsome : (values.map (Literal.tag .exact)).isEmpty = false := by simpa using hvalues
    have hsplit := splitUnpaired_joinedTags hvalues
    refine ⟨fun outermost => ?_, fun outermost => ?_, fun rest => ?_, hsplit, ?_⟩
    · rw [Tree.text, if_neg (by simp [hsome]), hset]
    · rw [Tree.text, if_neg (by simp [hsome]), hset]
      simp only [List.cons_append]
    · exact spanUnpaired_of_isClear (isClear_joinedTags values) List.mem_cons_self (by decide) rest
    · rw [hsplit, List.map_map]
      exact List.map_congr_left fun value _ => (standsFor_escapeTag value.toList).unescape_eq

/-- A bar and a brace in one tag, and a backslash at the end of another, right in front of the
brace of the set. -/
theorem values_found_between_delimiters_backslash :
    let values := ["a|b\x7d", "c\\"]
    values ≠ [] ∧
      (Tree.union "tags" (values.map (.tag .exact))).text true
        = "@tags:\x7ba\\|b\\\x7d|c\\\\\x7d".toList ∧
      spanUnpaired ['\x7d'] "a\\|b\\\x7d|c\\\\\x7d @age:[1 2]".toList
        = ("a\\|b\\\x7d|c\\\\".toList, "\x7d @age:[1 2]".toList) ∧
      (splitUnpaired '|' "a\\|b\\\x7d|c\\\\".toList).map unescape = values.map String.toList := by
  intro values
  have hvalues : values ≠ [] := List.cons_ne_nil _ _
  obtain ⟨htext, _, hbrace, _, hread⟩ :=
    (values_found_between_delimiters "tags").2 values hvalues
  have hjoined : joinedTags values = "a\\|b\\\x7d|c\\\\".toList := by decide +kernel
  rw [hjoined] at hbrace hread
  refine ⟨hvalues, ?_, hbrace " @age:[1 2]".toList, hread⟩
  rw [htext true, hjoined]
  decide +kernel

end IndexQuery.QueryText
