import IndexQuery.Text.Utf8
import Mathlib.Data.UInt
set_option autoImplicit false

/-! # Reading UTF-8 is the inverse of writing it

`decodeUtf8?` reads octets in the syntax of RFC 3629. It reads what any text is written as, and
nothing else (`decodeUtf8?_eq_some_iff`): the cases of the syntax are the widths a character can
have, and in each the bounds on the octets are those of the numbers of that width. -/

namespace IndexQuery.Text

variable {a b c d : UInt8} {rest : List UInt8}

theorem isTail_iff : isTail b = true ↔ 0x80 ≤ b.toNat ∧ b.toNat ≤ 0xBF := by
  simp [isTail, UInt8.le_iff_toNat_le]

/-! ## One character -/

theorem inRange {low high : UInt8} (hlow : low.toNat ≤ a.toNat) (hhigh : a.toNat ≤ high.toNat) :
    (decide (low ≤ a) && decide (a ≤ high)) = true := by
  rw [Bool.and_eq_true, decide_eq_true_eq, decide_eq_true_eq]
  exact ⟨UInt8.le_iff_toNat_le.mpr hlow, UInt8.le_iff_toNat_le.mpr hhigh⟩

theorem beyondRange {low high : UInt8} (h : high.toNat < a.toNat) :
    (decide (low ≤ a) && decide (a ≤ high)) = false := by
  have hnot : ¬ a ≤ high := by
    rw [UInt8.le_iff_toNat_le]
    exact Nat.not_le.mpr h
  rw [decide_eq_false hnot, Bool.and_false]

/-- An octet of the upper half does not stand for itself. -/
theorem not_lt_of_le {n : Nat} (hn : 0x80 ≤ n) (ha : n ≤ a.toNat) : ¬ a < 0x80 := by
  rw [UInt8.lt_iff_toNat_lt]
  exact Nat.not_lt.mpr (Nat.le_trans hn ha)

theorem decodeUtf8?_one (ha : a.toNat < 0x80) :
    decodeUtf8? (a :: rest) = (decodeUtf8? rest).map (Char.ofNat a.toNat :: ·) := by
  have hfirst : a < 0x80 := UInt8.lt_iff_toNat_lt.mpr ha
  rw [decodeUtf8?.eq_def]
  simp only [hfirst, if_true]

theorem decodeUtf8?_two (hlow : 0xC2 ≤ a.toNat) (hhigh : a.toNat ≤ 0xDF) (hb : isTail b = true) :
    decodeUtf8? (a :: b :: rest)
      = (decodeUtf8? rest).map (Char.ofNat (a.toNat % 32 * 64 + tailBits b) :: ·) := by
  have hrange : (decide (0xC2 ≤ a) && decide (a ≤ 0xDF)) = true := inRange hlow hhigh
  rw [decodeUtf8?.eq_def]
  simp only [not_lt_of_le (by decide) hlow, if_false, hrange, hb, Bool.and_self, if_true]

theorem decodeUtf8?_three {code : Nat}
    (hcode : code = a.toNat % 16 * 4096 + tailBits b * 64 + tailBits c)
    (hlow : 0xE0 ≤ a.toNat) (hhigh : a.toNat ≤ 0xEF) (hb : isTail b = true) (hc : isTail c = true)
    (hlong : 0x800 ≤ code) (hscalar : code < 0xD800 ∨ 0xDFFF < code) :
    decodeUtf8? (a :: b :: c :: rest) = (decodeUtf8? rest).map (Char.ofNat code :: ·) := by
  have hnottwo : (decide (0xC2 ≤ a) && decide (a ≤ 0xDF)) = false := beyondRange hlow
  have hrange : (decide (0xE0 ≤ a) && decide (a ≤ 0xEF)) = true := inRange hlow hhigh
  have hnosurrogate : (!(decide (0xD800 ≤ code) && decide (code ≤ 0xDFFF))) = true := by
    rw [← Bool.decide_and, decide_eq_false (by omega), Bool.not_false]
  rw [decodeUtf8?.eq_def]
  simp only [not_lt_of_le (by decide) hlow, if_false, hnottwo, Bool.false_and, Bool.false_eq_true,
    ← hcode, hrange, hb, hc, decide_eq_true hlong, hnosurrogate, Bool.and_self, if_true]

theorem decodeUtf8?_four {code : Nat}
    (hcode : code = a.toNat % 8 * 262144 + tailBits b * 4096 + tailBits c * 64 + tailBits d)
    (hlow : 0xF0 ≤ a.toNat) (hhigh : a.toNat ≤ 0xF4) (hb : isTail b = true) (hc : isTail c = true)
    (hd : isTail d = true) (hlong : 0x10000 ≤ code) (hscalar : code ≤ 0x10FFFF) :
    decodeUtf8? (a :: b :: c :: d :: rest) = (decodeUtf8? rest).map (Char.ofNat code :: ·) := by
  have hnottwo : (decide (0xC2 ≤ a) && decide (a ≤ 0xDF)) = false :=
    beyondRange (Nat.lt_of_lt_of_le (by decide) hlow)
  have hnotthree : (decide (0xE0 ≤ a) && decide (a ≤ 0xEF)) = false := beyondRange hlow
  have hrange : (decide (0xF0 ≤ a) && decide (a ≤ 0xF4)) = true := inRange hlow hhigh
  rw [decodeUtf8?.eq_def]
  simp only [not_lt_of_le (by decide) hlow, if_false, hnottwo, hnotthree, Bool.false_and,
    Bool.false_eq_true, ← hcode, hrange, hb, hc, hd, decide_eq_true hlong, decide_eq_true hscalar,
    Bool.and_self, if_true]

/-- A continuation octet holds six bits. -/
theorem tail_ofNat {n : Nat} (hn : n < 64) :
    isTail (UInt8.ofNat (n + 0x80)) = true ∧ tailBits (UInt8.ofNat (n + 0x80)) = n := by
  have hvalue : (UInt8.ofNat (n + 0x80)).toNat = n + 0x80 := by
    rw [UInt8.toNat_ofNat']
    omega
  rw [isTail_iff, tailBits, hvalue]
  omega

/-- What a character is written as is read as the character. -/
theorem decodeUtf8?_encodeChar (ch : Char) (rest : List UInt8) :
    decodeUtf8? (String.utf8EncodeChar ch ++ rest) = (decodeUtf8? rest).map (ch :: ·) := by
  have hvalid : ch.toNat < 0xD800 ∨ 0xDFFF < ch.toNat ∧ ch.toNat < 0x110000 := ch.valid
  have hchar : Char.ofNat ch.toNat = ch := Char.ofNat_toNat ch
  have hnat : ch.val.toNat = ch.toNat := rfl
  have hlead (n : Nat) (hn : n < 256) : (UInt8.ofNat n).toNat = n := by
    rw [UInt8.toNat_ofNat']
    omega
  unfold String.utf8EncodeChar
  simp only [hnat]
  generalize ch.toNat = code at *
  split
  case isTrue hone =>
    rw [List.singleton_append, decodeUtf8?_one (by rw [hlead _ (by omega)]; omega),
      hlead _ (by omega), hchar]
  case isFalse hone =>
    obtain ⟨hlast, hlastbits⟩ := tail_ofNat (Nat.mod_lt code (by decide : 0 < 64))
    split
    case isTrue htwo =>
      have hfirst := hlead (code / 64 % 32 + 0xC0) (by omega)
      rw [List.cons_append, List.cons_append, List.nil_append,
        decodeUtf8?_two (by rw [hfirst]; omega) (by rw [hfirst]; omega) hlast, hfirst, hlastbits]
      have hcode : (code / 64 % 32 + 0xC0) % 32 * 64 + code % 64 = code := by omega
      rw [hcode, hchar]
    case isFalse htwo =>
      obtain ⟨hmiddle, hmiddlebits⟩ := tail_ofNat (Nat.mod_lt (code / 64) (by decide : 0 < 64))
      split
      case isTrue hthree =>
        have hfirst := hlead (code / 4096 % 16 + 0xE0) (by omega)
        have hcode : code = (UInt8.ofNat (code / 4096 % 16 + 0xE0)).toNat % 16 * 4096
            + tailBits (UInt8.ofNat (code / 64 % 64 + 0x80)) * 64
            + tailBits (UInt8.ofNat (code % 64 + 0x80)) := by
          rw [hfirst, hmiddlebits, hlastbits]
          omega
        rw [List.cons_append, List.cons_append, List.cons_append, List.nil_append,
          decodeUtf8?_three hcode (by rw [hfirst]; omega) (by rw [hfirst]; omega) hmiddle hlast
            (by omega) (by omega),
          hchar]
      case isFalse hthree =>
        obtain ⟨hsecond, hsecondbits⟩ := tail_ofNat (Nat.mod_lt (code / 4096) (by decide : 0 < 64))
        have hfirst := hlead (code / 262144 % 8 + 0xF0) (by omega)
        have hcode : code = (UInt8.ofNat (code / 262144 % 8 + 0xF0)).toNat % 8 * 262144
            + tailBits (UInt8.ofNat (code / 4096 % 64 + 0x80)) * 4096
            + tailBits (UInt8.ofNat (code / 64 % 64 + 0x80)) * 64
            + tailBits (UInt8.ofNat (code % 64 + 0x80)) := by
          rw [hfirst, hsecondbits, hmiddlebits, hlastbits]
          omega
        rw [List.cons_append, List.cons_append, List.cons_append, List.cons_append,
          List.nil_append,
          decodeUtf8?_four hcode (by rw [hfirst]; omega)
            (by rw [hfirst]; omega) hsecond hmiddle hlast (by omega) (by omega),
          hchar]

/-! ## One character, read -/

theorem toNat_ofNat {n : Nat} (h : n < 0xD800 ∨ 0xDFFF < n ∧ n < 0x110000) :
    (Char.ofNat n).toNat = n := by
  have hvalid : n.isValidChar := h
  rw [Char.ofNat, dif_pos hvalid]
  rfl

theorem ofNat_eq {n : Nat} (h : n = a.toNat) : UInt8.ofNat n = a := by rw [h, UInt8.ofNat_toNat]

/-- A continuation octet is determined by the six bits it holds. -/
theorem ofNat_tail {n : Nat} (hb : isTail b = true) (h : n % 64 = tailBits b) :
    UInt8.ofNat (n % 0x40 + 0x80) = b := by
  obtain ⟨hlow, hhigh⟩ := isTail_iff.mp hb
  rw [tailBits] at h
  exact ofNat_eq (by omega)

theorem encodeChar_one (ha : a.toNat < 0x80) :
    String.utf8EncodeChar (Char.ofNat a.toNat) = [a] := by
  have hnat : (Char.ofNat a.toNat).val.toNat = a.toNat := toNat_ofNat (by omega)
  unfold String.utf8EncodeChar
  simp only [hnat]
  rw [if_pos (by omega), UInt8.ofNat_toNat]

theorem encodeChar_two (hlow : 0xC2 ≤ a.toNat) (hhigh : a.toNat ≤ 0xDF) (hb : isTail b = true) :
    String.utf8EncodeChar (Char.ofNat (a.toNat % 32 * 64 + tailBits b)) = [a, b] := by
  have hbits : tailBits b < 64 := Nat.mod_lt _ (by decide)
  generalize hcode : a.toNat % 32 * 64 + tailBits b = code
  have hnat : (Char.ofNat code).val.toNat = code := toNat_ofNat (by omega)
  have hfirst := ofNat_eq (show code / 64 % 0x20 + 0xC0 = a.toNat by omega)
  have hsecond := ofNat_tail hb (show code % 64 = tailBits b by omega)
  unfold String.utf8EncodeChar
  simp only [hnat]
  rw [if_neg (by omega), if_pos (by omega), hfirst, hsecond]

theorem encodeChar_three {code : Nat}
    (hcode : code = a.toNat % 16 * 4096 + tailBits b * 64 + tailBits c)
    (hlow : 0xE0 ≤ a.toNat) (hhigh : a.toNat ≤ 0xEF) (hb : isTail b = true) (hc : isTail c = true)
    (hlong : 0x800 ≤ code) (hscalar : code < 0xD800 ∨ 0xDFFF < code) :
    String.utf8EncodeChar (Char.ofNat code) = [a, b, c] := by
  have hbbits : tailBits b < 64 := Nat.mod_lt _ (by decide)
  have hcbits : tailBits c < 64 := Nat.mod_lt _ (by decide)
  have hnat : (Char.ofNat code).val.toNat = code := toNat_ofNat (by omega)
  have hfirst := ofNat_eq (show code / 4096 % 0x10 + 0xE0 = a.toNat by omega)
  have hsecond := ofNat_tail hb (show code / 64 % 64 = tailBits b by omega)
  have hthird := ofNat_tail hc (show code % 64 = tailBits c by omega)
  unfold String.utf8EncodeChar
  simp only [hnat]
  rw [if_neg (by omega), if_neg (by omega), if_pos (by omega), hfirst, hsecond, hthird]

theorem encodeChar_four {code : Nat}
    (hcode : code = a.toNat % 8 * 262144 + tailBits b * 4096 + tailBits c * 64 + tailBits d)
    (hlow : 0xF0 ≤ a.toNat) (hhigh : a.toNat ≤ 0xF4) (hb : isTail b = true) (hc : isTail c = true)
    (hd : isTail d = true) (hlong : 0x10000 ≤ code) (hscalar : code ≤ 0x10FFFF) :
    String.utf8EncodeChar (Char.ofNat code) = [a, b, c, d] := by
  have hbbits : tailBits b < 64 := Nat.mod_lt _ (by decide)
  have hcbits : tailBits c < 64 := Nat.mod_lt _ (by decide)
  have hdbits : tailBits d < 64 := Nat.mod_lt _ (by decide)
  have hnat : (Char.ofNat code).val.toNat = code := toNat_ofNat (by omega)
  have hfirst := ofNat_eq (show code / 262144 % 0x08 + 0xF0 = a.toNat by omega)
  have hsecond := ofNat_tail hb (show code / 4096 % 64 = tailBits b by omega)
  have hthird := ofNat_tail hc (show code / 64 % 64 = tailBits c by omega)
  have hfourth := ofNat_tail hd (show code % 64 = tailBits d by omega)
  unfold String.utf8EncodeChar
  simp only [hnat]
  rw [if_neg (by omega), if_neg (by omega), if_neg (by omega), hfirst, hsecond, hthird, hfourth]

/-! ## Texts -/

theorem of_inRange {low high : UInt8} (h : (decide (low ≤ a) && decide (a ≤ high)) = true) :
    low.toNat ≤ a.toNat ∧ a.toNat ≤ high.toNat := by
  rw [Bool.and_eq_true, decide_eq_true_eq, decide_eq_true_eq] at h
  exact ⟨UInt8.le_iff_toNat_le.mp h.1, UInt8.le_iff_toNat_le.mp h.2⟩

/-- A text is read back from what it is written as. -/
theorem decodeUtf8?_flatMap (cs : List Char) :
    decodeUtf8? (cs.flatMap String.utf8EncodeChar) = some cs := by
  induction cs with
  | nil => rfl
  | cons ch cs ih => rw [List.flatMap_cons, decodeUtf8?_encodeChar, ih, Option.map_some]

/-- Whatever is read is written as the octets it was read from. -/
theorem eq_flatMap_of_decodeUtf8? {bs : List UInt8} {cs : List Char}
    (h : decodeUtf8? bs = some cs) : bs = cs.flatMap String.utf8EncodeChar := by
  fun_induction decodeUtf8? bs generalizing cs with
  | case1 => cases h; rfl
  | case2 a rest hone ih =>
      obtain ⟨tail, htail, rfl⟩ := Option.map_eq_some_iff.mp h
      rw [List.flatMap_cons, ← ih htail, encodeChar_one (UInt8.lt_iff_toNat_lt.mp hone)]
      rfl
  | case4 a hone b rest htwo ih =>
      obtain ⟨tail, htail, rfl⟩ := Option.map_eq_some_iff.mp h
      rw [Bool.and_eq_true] at htwo
      obtain ⟨hlow, hhigh⟩ := of_inRange htwo.1
      rw [List.flatMap_cons, ← ih htail, encodeChar_two hlow hhigh htwo.2]
      rfl
  | case6 a hone b htwo c rest code hthree =>
      rename_i ih
      obtain ⟨tail, htail, rfl⟩ := Option.map_eq_some_iff.mp h
      simp only [Bool.and_eq_true, Bool.not_eq_true', Bool.and_eq_false_iff, decide_eq_true_eq,
        decide_eq_false_iff_not] at hthree
      obtain ⟨⟨⟨⟨⟨hlow, hhigh⟩, hb⟩, hc⟩, hlong⟩, hscalar⟩ := hthree
      rw [List.flatMap_cons, ← ih htail, encodeChar_three rfl (UInt8.le_iff_toNat_le.mp hlow)
        (UInt8.le_iff_toNat_le.mp hhigh) hb hc hlong (by omega)]
      rfl
  | case8 a hone b htwo c narrow hthree d rest code hfour =>
      rename_i ih
      obtain ⟨tail, htail, rfl⟩ := Option.map_eq_some_iff.mp h
      simp only [Bool.and_eq_true, decide_eq_true_eq] at hfour
      obtain ⟨⟨⟨⟨⟨⟨hlow, hhigh⟩, hb⟩, hc⟩, hd⟩, hlong⟩, hscalar⟩ := hfour
      rw [List.flatMap_cons, ← ih htail, encodeChar_four rfl (UInt8.le_iff_toNat_le.mp hlow)
        (UInt8.le_iff_toNat_le.mp hhigh) hb hc hd hlong hscalar]
      rfl
  | case3 | case5 | case7 | case9 => cases h

/-- What is read is exactly what some text is written as. -/
theorem decodeUtf8?_eq_some_iff {bs : List UInt8} {cs : List Char} :
    decodeUtf8? bs = some cs ↔ bs = cs.flatMap String.utf8EncodeChar :=
  ⟨eq_flatMap_of_decodeUtf8?, fun h => h ▸ decodeUtf8?_flatMap cs⟩

/-- The octets a text is written as. -/
def utf8 (t : String) : List UInt8 := t.toUTF8.data.toList

theorem utf8_eq_flatMap (t : String) : utf8 t = t.toList.flatMap String.utf8EncodeChar := by
  have hbytes : t.toUTF8 = t.toList.utf8Encode := by
    rw [String.toUTF8_eq_toByteArray, ← String.toByteArray_ofList, String.ofList_toList]
  rw [utf8, hbytes, List.utf8Encode, List.toList_data_toByteArray]

/-- A text of characters below 128 takes one octet for each of them. -/
theorem length_utf8_of_ascii {t : String} (h : ∀ ch ∈ t.toList, ch.toNat < 128) :
    (utf8 t).length = t.toList.length := by
  rw [utf8_eq_flatMap]
  generalize t.toList = cs at h
  induction cs with
  | nil => rfl
  | cons ch cs ih =>
      obtain ⟨hch, hcs⟩ := List.forall_mem_cons.mp h
      have hone : (String.utf8EncodeChar ch).length = 1 := by
        have hsmall : ch.val.toNat ≤ 0x7F := Nat.le_of_lt_succ hch
        rw [String.utf8EncodeChar, if_pos hsmall, List.length_singleton]
      rw [List.flatMap_cons, List.length_append, hone, ih hcs, List.length_cons, Nat.add_comm]

/-- Reading UTF-8 finds the text that is written as the octets, if there is one. -/
theorem decodeUtf8?_eq_some_toList_iff {bs : List UInt8} {t : String} :
    decodeUtf8? bs = some t.toList ↔ bs = utf8 t := by
  rw [decodeUtf8?_eq_some_iff, utf8_eq_flatMap]

theorem decodeUtf8?_eq_none_iff {bs : List UInt8} : decodeUtf8? bs = none ↔ ∀ t, bs ≠ utf8 t := by
  rw [Option.eq_none_iff_forall_ne_some]
  constructor
  · intro h t ht
    exact h t.toList (decodeUtf8?_eq_some_toList_iff.mpr ht)
  · intro h cs hcs
    rw [← String.toList_ofList (l := cs)] at hcs
    exact h (String.ofList cs) (decodeUtf8?_eq_some_toList_iff.mp hcs)

end IndexQuery.Text
