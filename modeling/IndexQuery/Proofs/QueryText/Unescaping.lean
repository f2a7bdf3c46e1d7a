import IndexQuery.Proofs.QueryText.Separation
set_option autoImplicit false

/-! # Reading escaped texts

A reader of the query language goes from left to right. A backslash and the character behind it are
a pair, which stands for that character (`unescape`); the characters in no pair (`unpaired`) are
those that may have a meaning in the language. Both are read off the symbols of a text, the pairs
and the characters that stand alone (`symbols`). Escaping a class that has the backslash in it makes
a pair of each character of the class and leaves all others alone, whatever follows
(`symbols_escape_append`). A text is whole when no pair begins in it and ends behind it; whole texts
are read one after the other. -/

namespace IndexQuery.QueryText

/-- The text that an escaped text stands for: the backslash of each pair is dropped. -/
def unescape : List Char → List Char
  | '\\' :: c :: rest => c :: unescape rest
  | c :: rest => c :: unescape rest
  | [] => []

/-- The characters that belong to no pair of a backslash and the character behind it. -/
def unpaired : List Char → List Char
  | '\\' :: _ :: rest => unpaired rest
  | c :: rest => c :: unpaired rest
  | [] => []

/-! ## Symbols -/

/-- A character as the reader takes it: alone, or in a pair with the backslash in front of it. -/
inductive Symbol where
  | alone (c : Char)
  | paired (c : Char)
deriving DecidableEq

namespace Symbol

/-- The character a symbol stands for. -/
def char : Symbol → Char
  | alone c => c
  | paired c => c

/-- The character of a symbol that is no pair. -/
def alone? : Symbol → Option Char
  | alone c => some c
  | paired _ => none

/-- The text of a symbol. -/
def write : Symbol → List Char
  | alone c => [c]
  | paired c => ['\\', c]

/-- The symbol of a character that is escaped if it is in a class. -/
def ofEscaped (special : List Char) (c : Char) : Symbol :=
  if c ∈ special then paired c else alone c

theorem char_ofEscaped (special : List Char) (c : Char) : (ofEscaped special c).char = c := by
  unfold ofEscaped
  split <;> rfl

theorem ofEscaped_of_mem {special : List Char} {c : Char} (hc : c ∈ special) :
    ofEscaped special c = paired c := if_pos hc

theorem ofEscaped_of_not_mem {special : List Char} {c : Char} (hc : c ∉ special) :
    ofEscaped special c = alone c := if_neg hc

end Symbol

/-- The symbols of a text, from left to right. -/
def symbols : List Char → List Symbol
  | '\\' :: c :: rest => .paired c :: symbols rest
  | c :: rest => .alone c :: symbols rest
  | [] => []

@[simp] theorem symbols_nil : symbols [] = [] := rfl

theorem symbols_pair (c : Char) (rest : List Char) :
    symbols ('\\' :: c :: rest) = .paired c :: symbols rest := rfl

theorem symbols_cons {c : Char} (hc : c ≠ '\\') (rest : List Char) :
    symbols (c :: rest) = .alone c :: symbols rest := by
  rw [symbols]
  exact fun _ _ h => absurd h hc

/-- Reading loses nothing. -/
theorem flatMap_write_symbols (s : List Char) : (symbols s).flatMap Symbol.write = s := by
  induction s using symbols.induct with
  | case1 c rest ih => simp [symbols, Symbol.write, ih]
  | case2 c rest hpair ih => simp [symbols, Symbol.write, ih]
  | case3 => rfl

theorem unescape_eq (s : List Char) : unescape s = (symbols s).map Symbol.char := by
  induction s using symbols.induct with
  | case1 c rest ih => simp [symbols, unescape, Symbol.char, ih]
  | case2 c rest hpair ih => simp [symbols, unescape, Symbol.char, ih]
  | case3 => rfl

theorem unpaired_eq (s : List Char) : unpaired s = (symbols s).filterMap Symbol.alone? := by
  induction s using symbols.induct with
  | case1 c rest ih => exact ih
  | case2 c rest hpair ih => simp [symbols, unpaired, Symbol.alone?, ih]
  | case3 => rfl

theorem mem_unpaired_iff {c : Char} {s : List Char} : c ∈ unpaired s ↔ .alone c ∈ symbols s := by
  rw [unpaired_eq, List.mem_filterMap]
  constructor
  · rintro ⟨x, hx, hchar⟩
    cases x with
    | alone d => exact Option.some.inj hchar ▸ hx
    | paired d => cases hchar
  · exact fun hc => ⟨_, hc, rfl⟩

/-! ## Whole texts -/

/-- No pair begins in the text and ends behind it. -/
def IsWhole (s : List Char) : Prop := ∀ rest, symbols (s ++ rest) = symbols s ++ symbols rest

theorem isWhole_nil : IsWhole [] := fun _ => rfl

theorem isWhole_singleton {c : Char} (hc : c ≠ '\\') : IsWhole [c] := by
  intro rest
  rw [List.singleton_append, symbols_cons hc, symbols_cons hc]
  rfl

theorem isWhole_optional {mark : Option Char} (hmark : ∀ c ∈ mark, c ≠ '\\') :
    IsWhole mark.toList := by
  cases mark with
  | none => exact isWhole_nil
  | some c => exact isWhole_singleton (hmark c rfl)

namespace IsWhole

variable {s t : List Char}

theorem append (hs : IsWhole s) (ht : IsWhole t) : IsWhole (s ++ t) := by
  intro rest
  rw [List.append_assoc, hs (t ++ rest), ht rest, hs t, List.append_assoc]

theorem unpaired_append (hs : IsWhole s) (rest : List Char) :
    unpaired (s ++ rest) = unpaired s ++ unpaired rest := by
  rw [unpaired_eq, hs rest, List.filterMap_append, ← unpaired_eq, ← unpaired_eq]

end IsWhole

/-- What is read off each piece and off the separator whatever follows them is read off the pieces
joined by the separator. -/
theorem intercalate_of_append {β : Type} {read : List Char → List β} {separator : List Char}
    (hnil : read [] = [])
    (hseparator : ∀ rest, read (separator ++ rest) = read separator ++ read rest)
    {pieces : List (List Char)}
    (hpieces : ∀ piece ∈ pieces, ∀ rest, read (piece ++ rest) = read piece ++ read rest) :
    read (separator.intercalate pieces) = (read separator).intercalate (pieces.map read) := by
  induction pieces with
  | nil => exact hnil
  | cons piece pieces ih =>
      have hpiece := hpieces piece List.mem_cons_self
      have hothers := ih fun p hp => hpieces p (List.mem_cons_of_mem _ hp)
      cases pieces with
      | nil => simp
      | cons piece' pieces =>
          simp only [List.map_cons, List.intercalate_cons_cons, List.append_assoc] at hothers ⊢
          rw [hpiece, hseparator, hothers]

section Joined

variable {separator : Char} {pieces : List (List Char)}

theorem symbols_joined (hseparator : separator ≠ '\\')
    (hpieces : ∀ piece ∈ pieces, IsWhole piece) :
    symbols ([separator].intercalate pieces)
      = [Symbol.alone separator].intercalate (pieces.map symbols) := by
  have hone : symbols [separator] = [.alone separator] := symbols_cons hseparator []
  have hjoined := intercalate_of_append rfl (isWhole_singleton hseparator) hpieces
  rwa [hone] at hjoined

theorem unpaired_joined (hseparator : separator ≠ '\\')
    (hpieces : ∀ piece ∈ pieces, IsWhole piece) :
    unpaired ([separator].intercalate pieces)
      = [separator].intercalate (pieces.map unpaired) := by
  have hone : unpaired [separator] = [separator] := by
    rw [unpaired_eq, symbols_cons hseparator]
    rfl
  have hjoined := intercalate_of_append rfl (isWhole_singleton hseparator).unpaired_append
    fun piece hpiece => (hpieces piece hpiece).unpaired_append
  rwa [hone] at hjoined

end Joined

/-! ## Escaped texts -/

variable {special : List Char}

/-- The characters of the class are in pairs and all others stand alone, whatever follows. -/
theorem symbols_escape_append (hslash : '\\' ∈ special) (s rest : List Char) :
    symbols (escape special.contains s ++ rest)
      = s.map (Symbol.ofEscaped special) ++ symbols rest := by
  induction s with
  | nil => rfl
  | cons c s ih =>
      by_cases hc : c ∈ special
      · rw [escape_cons_of_mem hc, List.cons_append, List.cons_append, symbols_pair, ih,
          List.map_cons, Symbol.ofEscaped_of_mem hc, List.cons_append]
      · have hplain : c ≠ '\\' := fun h => hc (h ▸ hslash)
        rw [escape_cons_of_not_mem hc, List.cons_append, symbols_cons hplain, ih, List.map_cons,
          Symbol.ofEscaped_of_not_mem hc, List.cons_append]

theorem symbols_escape (hslash : '\\' ∈ special) (s : List Char) :
    symbols (escape special.contains s) = s.map (Symbol.ofEscaped special) := by
  simpa using symbols_escape_append hslash s []

theorem isWhole_escape (hslash : '\\' ∈ special) (s : List Char) :
    IsWhole (escape special.contains s) := by
  intro rest
  rw [symbols_escape_append hslash, symbols_escape hslash]

/-- Escaping is undone by unescaping. -/
theorem unescape_escape (hslash : '\\' ∈ special) (s : List Char) :
    unescape (escape special.contains s) = s := by
  rw [unescape_eq, symbols_escape hslash, List.map_map]
  exact List.map_id'' (Symbol.char_ofEscaped special) s

/-- No character of the class stands alone. -/
theorem alone_not_mem_symbols_escape (hslash : '\\' ∈ special) (s : List Char) {c : Char}
    (hc : c ∈ special) : .alone c ∉ symbols (escape special.contains s) := by
  rw [symbols_escape hslash]
  intro hmem
  obtain ⟨d, _, hd⟩ := List.mem_map.mp hmem
  have hsame : d = c := by rw [← Symbol.char_ofEscaped special d, hd]; rfl
  rw [hsame, Symbol.ofEscaped_of_mem hc] at hd
  cases hd

end IndexQuery.QueryText
