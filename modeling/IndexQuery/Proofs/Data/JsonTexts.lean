import IndexQuery.Data.JsonReading
import IndexQuery.Proofs.Number.JsonForm
import IndexQuery.Proofs.QueryText.Separation
set_option autoImplicit false

/-! # JSON texts determine data

The compact and the pretty form of JSON differ only in the white space in front of items and behind
keys (`IsWriter`). In either form the text of data with finite numbers belongs to these data only
(`compact_inj`, `pretty_inj`), because a written value can be told from what follows it: a quoted
text ends at the first mark that is not escaped, a number before the first comma, bracket or line
break, and a list or record where its bracket is closed (`IsWriter.unambiguous`). -/

namespace IndexQuery

open QueryText (StartsIn Unambiguous startsIn_nil startsIn_cons)

/-! ## Texts -/

namespace JsonReading

theorem hexValue?_hexDigit : ∀ n < 16, hexValue? (JsonText.hexDigit n) = some n := by decide

/-- The escape of a control character is read back. -/
theorem takeEscapedCode_control {c : Char} (hc : c.toNat < 32) (rest : List Char) :
    takeEscapedCode ('0' :: '0' :: JsonText.hexDigit (c.toNat / 16)
      :: JsonText.hexDigit (c.toNat % 16) :: rest) = some (c, rest) := by
  have hzero : hexValue? '0' = some 0 := rfl
  have hhigh := hexValue?_hexDigit (c.toNat / 16) (by omega)
  have hlow := hexValue?_hexDigit (c.toNat % 16) (by omega)
  have hcode : 16 * (c.toNat / 16) + c.toNat % 16 = c.toNat := Nat.div_add_mod _ _
  have htake : takeHex 4 0 ('0' :: '0' :: JsonText.hexDigit (c.toNat / 16)
      :: JsonText.hexDigit (c.toNat % 16) :: rest) = some (c.toNat, rest) := by
    simp [takeHex, hzero, hhigh, hlow, hcode]
  have hlone : ¬ 0xDC00 ≤ c.toNat := by omega
  have hpair : ¬ 0xD800 ≤ c.toNat := by omega
  simp [takeEscapedCode, htake, hlone, hpair, Char.ofNat_toNat]

/-- A character is written as an escape of one letter, as a numeric escape, or as it is. -/
theorem quotedChar_cases (c : Char) :
    (∃ e, e ≠ 'u' ∧ shortEscape? e = some c ∧ JsonText.quotedChar c = ['\\', e]) ∨
      (c.toNat < 32 ∧ JsonText.quotedChar c = ['\\', 'u', '0', '0',
        JsonText.hexDigit (c.toNat / 16), JsonText.hexDigit (c.toNat % 16)]) ∨
      (¬ c.toNat < 32 ∧ c ≠ '"' ∧ c ≠ '\\' ∧ JsonText.quotedChar c = [c]) := by
  have hchar : ∀ {n}, c.toNat = n → Char.ofNat n = c := fun hn => hn ▸ Char.ofNat_toNat c
  unfold JsonText.quotedChar
  split
  · next h => exact .inl ⟨'"', by decide, by rw [h]; rfl, rfl⟩
  split
  · next h => exact .inl ⟨'\\', by decide, by rw [h]; rfl, rfl⟩
  split
  · next h => exact .inl ⟨'b', by decide, by rw [← hchar h]; rfl, rfl⟩
  split
  · next h => exact .inl ⟨'t', by decide, by rw [← hchar h]; rfl, rfl⟩
  split
  · next h => exact .inl ⟨'n', by decide, by rw [← hchar h]; rfl, rfl⟩
  split
  · next h => exact .inl ⟨'f', by decide, by rw [← hchar h]; rfl, rfl⟩
  split
  · next h => exact .inl ⟨'r', by decide, by rw [← hchar h]; rfl, rfl⟩
  split
  · next hcontrol => exact .inr (.inl ⟨hcontrol, rfl⟩)
  · next hquote hslash _ _ _ _ _ hcontrol => exact .inr (.inr ⟨hcontrol, hquote, hslash, rfl⟩)

/-- One character of a quoted text is read back. -/
theorem takeQuoted_quotedChar (fuel : Nat) (c : Char) (rest : List Char) :
    takeQuoted (fuel + 1) (JsonText.quotedChar c ++ rest)
      = (takeQuoted fuel rest).map fun (cs, after) => (c :: cs, after) := by
  rcases quotedChar_cases c with ⟨e, hu, he, hform⟩ | ⟨hcontrol, hform⟩ |
    ⟨hcontrol, hquote, hslash, hform⟩
  · rw [hform, List.cons_append, List.singleton_append, takeQuoted, he]
    · cases takeQuoted fuel rest <;> rfl
    · exact hu
  · simp only [hform, List.cons_append, List.nil_append]
    rw [takeQuoted, takeEscapedCode_control hcontrol, Option.bind_eq_bind, Option.bind_some]
    dsimp only
    cases takeQuoted fuel rest <;> rfl
  · rw [hform, List.singleton_append, takeQuoted, if_neg]
    · simp [hcontrol, hslash]
    · exact hquote
    · exact fun _ h => absurd h hslash
    · exact fun _ _ h => absurd h hslash

/-- A quoted text is read back, whatever follows its closing mark. -/
theorem takeQuoted_quoted {s : List Char} {fuel : Nat} (hfuel : s.length < fuel)
    (rest : List Char) :
    takeQuoted fuel (s.flatMap JsonText.quotedChar ++ '"' :: rest) = some (s, rest) := by
  obtain ⟨fuel, rfl⟩ := Nat.exists_eq_add_of_lt hfuel
  induction s with
  | nil => rfl
  | cons c s ih =>
      have hmore : (c :: s).length + fuel + 1 = (s.length + fuel + 1) + 1 := by
        rw [List.length_cons]
        omega
      rw [hmore, List.flatMap_cons, List.append_assoc, takeQuoted_quotedChar, ih (by omega)]
      rfl

end JsonReading

/-! ## Parts of JSON texts -/

namespace JsonText

theorem unambiguous_quoted (stop : List Char) : Unambiguous (fun _ => True) stop quoted := by
  intro s t r r' _ _ _ _ heq
  have hinside : s.toList.flatMap quotedChar ++ '"' :: r
      = t.toList.flatMap quotedChar ++ '"' :: r' := by
    simpa [quoted, List.append_assoc] using heq
  have hs := JsonReading.takeQuoted_quoted (s := s.toList)
    (Nat.lt_succ_of_le (Nat.le_max_left s.length t.length)) r
  have ht := JsonReading.takeQuoted_quoted (s := t.toList)
    (Nat.lt_succ_of_le (Nat.le_max_right s.length t.length)) r'
  rw [hinside, ht] at hs
  obtain ⟨htexts, hrests⟩ := Prod.mk.inj (Option.some.inj hs)
  exact ⟨String.toList_inj.mp htexts.symm, hrests.symm⟩

theorem number_of_isFinite {x : Double} (hx : x.isFinite = true) :
    number x = NumberLayout.json.text x := if_pos hx

/-- What may stand behind a value. -/
def valueStop : List Char := [',', ']', '\x7d', '\n']

/-- The text of a number ends where none of its characters stands. -/
theorem unambiguous_numeral {α : Type} {valid : α → Prop} {write : α → List Char}
    (hinj : ∀ a b, valid a → valid b → write a = write b → a = b)
    (hchars : ∀ a, valid a → ∀ c ∈ write a, Double.isJsonChar c = true) :
    Unambiguous valid valueStop write := by
  have hstop : ∀ c ∈ valueStop, Double.isJsonChar c = false := by
    simp [valueStop, Double.isJsonChar, Number.isDigit]
  have hnot : ∀ a, valid a → ∀ c ∈ write a, c ∉ valueStop := by
    intro a ha c hc hmem
    have := hchars a ha c hc
    rw [hstop c hmem] at this
    cases this
  intro a b r r' ha hb hr hr' heq
  obtain ⟨htexts, hrests⟩ :=
    QueryText.unambiguous_run valueStop _ _ r r' (hnot a ha) (hnot b hb) hr hr' heq
  exact ⟨hinj a b ha hb htexts, hrests⟩

/-- A key with its value. -/
def entryText (gap : List Char) (write : Datum → List Char) (entry : String × Datum) :
    List Char := quoted entry.1 ++ ':' :: (gap ++ write entry.2)

theorem unambiguous_entryText {valid : Datum → Prop} {stop : List Char}
    {write : Datum → List Char} (h : Unambiguous valid stop write) (gap : List Char) :
    Unambiguous (fun entry => valid entry.2) stop (entryText gap write) := by
  rintro ⟨key, value⟩ ⟨key', value'⟩ r r' hvalue hvalue' hr hr' heq
  have hcolon : ∀ s, StartsIn [':'] (':' :: s) := startsIn_cons (List.mem_singleton.mpr rfl)
  have heq : quoted key ++ ':' :: (gap ++ (write value ++ r))
      = quoted key' ++ ':' :: (gap ++ (write value' ++ r')) := by
    simpa [entryText, List.append_assoc] using heq
  obtain ⟨rfl, hrest⟩ := unambiguous_quoted [':'] _ _ _ _ trivial trivial (hcolon _) (hcolon _) heq
  obtain ⟨rfl, hrests⟩ := h value value' r r' hvalue hvalue' hr hr'
    (List.append_cancel_left (List.cons.inj hrest).2)
  exact ⟨rfl, hrests⟩

/-- Items between brackets, with white space in front of each item and behind the last one. -/
def bracketed {α : Type} (opening closing : Char) (before after : List Char)
    (write : α → List Char) : List α → List Char
  | [] => [opening, closing]
  | items =>
    opening :: [','].intercalate (items.map fun item => before ++ write item) ++ after ++ [closing]

section Bracketed

variable {α : Type} {valid : α → Prop} {write : α → List Char} {opening closing : Char}
  {before after : List Char}

theorem bracketed_append_of_ne_nil {items : List α} (hne : items ≠ []) (r : List Char) :
    bracketed opening closing before after write items ++ r
      = opening :: ([','].intercalate (items.map fun item => before ++ write item)
        ++ (after ++ closing :: r)) := by
  obtain ⟨item, rest, rfl⟩ := List.exists_cons_of_ne_nil hne
  simp [bracketed, List.append_assoc]

/-- What begins with white space or an item does not begin with the closing bracket. -/
theorem separated_ne {items : List α} (hne : items ≠ []) (hitems : ∀ item ∈ items, valid item)
    (hbefore : StartsIn ['\n'] before) (hclosing : closing ≠ '\n')
    (hwrite : ∀ item, valid item → ∀ r t, write item ++ r ≠ closing :: t) (r t : List Char) :
    [','].intercalate (items.map fun item => before ++ write item) ++ r ≠ closing :: t := by
  obtain ⟨item, rest, rfl⟩ := List.exists_cons_of_ne_nil hne
  obtain ⟨more, hmore⟩ : ∃ more,
      [','].intercalate ((item :: rest).map fun item => before ++ write item) ++ r
        = before ++ (write item ++ more) := by
    cases rest with
    | nil => exact ⟨r, by simp [List.append_assoc]⟩
    | cons next rest => exact ⟨_, by
        rw [List.map_cons, List.map_cons, List.intercalate_cons_cons]
        simp only [List.append_assoc]
        rfl⟩
  rw [hmore]
  cases before with
  | nil => exact hwrite item (hitems item List.mem_cons_self) more t
  | cons c before =>
      intro heq
      have hc := (List.cons.inj heq).1
      exact hclosing (hc ▸ List.mem_singleton.mp hbefore.head_mem)

/-- Brackets around items that are told apart may be followed by anything. -/
theorem unambiguous_bracketed (h : Unambiguous valid [',', closing, '\n'] write)
    (hcomma : closing ≠ ',') (hbreak : closing ≠ '\n')
    (hwrite : ∀ item, valid item → ∀ r t, write item ++ r ≠ closing :: t)
    (hbefore : StartsIn ['\n'] before) (hafter : StartsIn ['\n'] after) (stop : List Char) :
    Unambiguous (fun items => ∀ item ∈ items, valid item) stop
      (bracketed opening closing before after write) := by
  have hspaced : Unambiguous valid [',', closing, '\n'] fun item => before ++ write item := by
    intro a b r r' ha hb hr hr' heq
    rw [List.append_assoc, List.append_assoc] at heq
    exact h a b r r' ha hb hr hr' (List.append_cancel_left heq)
  have hjoined := hspaced.joined (by simp [hcomma.symm])
  have hend : ∀ r, StartsIn [closing, '\n'] (after ++ closing :: r) := by
    intro r
    cases after with
    | nil => exact startsIn_cons List.mem_cons_self r
    | cons c after => exact startsIn_cons (List.mem_cons_of_mem _ hafter.head_mem) _
  intro xs ys r r' hx hy _ _ heq
  by_cases hxs : xs = []
  · by_cases hys : ys = []
    · subst hxs hys
      exact ⟨rfl, List.append_cancel_left heq⟩
    · subst hxs
      rw [bracketed_append_of_ne_nil hys] at heq
      exact absurd (List.cons.inj heq).2.symm (separated_ne hys hy hbefore hbreak hwrite _ _)
  · by_cases hys : ys = []
    · subst hys
      rw [bracketed_append_of_ne_nil hxs] at heq
      exact absurd (List.cons.inj heq).2 (separated_ne hxs hx hbefore hbreak hwrite _ _)
    · rw [bracketed_append_of_ne_nil hxs, bracketed_append_of_ne_nil hys] at heq
      obtain ⟨hitems, hrest⟩ := hjoined xs ys _ _ ⟨hxs, hx⟩ ⟨hys, hy⟩ (hend r) (hend r')
        (List.cons.inj heq).2
      exact ⟨hitems, (List.cons.inj (List.append_cancel_left hrest)).2⟩

end Bracketed

end JsonText

/-! ## Data -/

namespace Datum

open JsonText

/-- All floating-point numbers in the datum are finite. -/
inductive HoldsFinite : Datum → Prop
  | null : HoldsFinite .null
  | bool (value : Bool) : HoldsFinite (.bool value)
  | int (value : Int) : HoldsFinite (.int value)
  | float {value : Double} (h : value.isFinite = true) : HoldsFinite (.float value)
  | text (value : String) : HoldsFinite (.text value)
  | list {items : List Datum} (h : ∀ item ∈ items, HoldsFinite item) : HoldsFinite (.list items)
  | record {entries : List (String × Datum)} (h : ∀ entry ∈ entries, HoldsFinite entry.2) :
      HoldsFinite (.record entries)

/-- A way of writing JSON: `line` stands in front of the items of the given depth, and `gap`
between a key and its value. -/
structure IsWriter (line : Nat → List Char) (gap : List Char) (write : Nat → Datum → List Char) :
    Prop where
  blank : ∀ depth, StartsIn ['\n'] (line depth)
  null : ∀ depth, write depth .null = ['n', 'u', 'l', 'l']
  bool : ∀ depth value, write depth (.bool value) = truth value
  int : ∀ depth (value : Int), write depth (.int value) = (toString value).toList
  float : ∀ depth value, write depth (.float value) = JsonText.number value
  text : ∀ depth value, write depth (.text value) = quoted value
  list : ∀ depth items, write depth (.list items)
    = bracketed '[' ']' (line (depth + 1)) (line depth) (write (depth + 1)) items
  record : ∀ depth entries, write depth (.record entries)
    = bracketed '\x7b' '\x7d' (line (depth + 1)) (line depth) (entryText gap (write (depth + 1)))
        entries

/-! ### How values begin -/

/-- The first character of a written value; all numbers and both truth values have the same. -/
def opening : Datum → Char
  | .null => 'n'
  | .bool _ => 't'
  | .int _ => '0'
  | .float _ => '0'
  | .text _ => '"'
  | .list _ => '['
  | .record _ => '\x7b'

/-- The value a first character belongs to. -/
def openingOf (c : Char) : Char :=
  if Double.isJsonChar c then '0' else if c = 'f' then 't' else c

section Writer

variable {line : Nat → List Char} {gap : List Char} {write : Nat → Datum → List Char}

theorem openingOf_numeral {s : List Char} (hne : s ≠ [])
    (hs : ∀ c ∈ s, Double.isJsonChar c = true) : ∃ c t, s = c :: t ∧ openingOf c = '0' := by
  obtain ⟨c, t, rfl⟩ := List.exists_cons_of_ne_nil hne
  exact ⟨c, t, rfl, if_pos (hs c List.mem_cons_self)⟩

theorem bracketed_head {α : Type} (opening closing : Char) (before after : List Char)
    (write : α → List Char) (items : List α) :
    ∃ t, bracketed opening closing before after write items = opening :: t := by
  cases items with
  | nil => exact ⟨_, rfl⟩
  | cons item rest => exact ⟨_, rfl⟩

theorem isJsonChar_toString (n : Int) : ∀ c ∈ (toString n).toList, Double.isJsonChar c = true := by
  intro c hc
  rcases Number.isDigit_or_minus_of_mem_toString c hc with hdigit | rfl
  · exact Double.isJsonChar_of_isDigit hdigit
  · decide

/-- The first character of a value tells what the value is. -/
theorem IsWriter.head (hw : IsWriter line gap write) (depth : Nat) {d : Datum}
    (hd : d.HoldsFinite) : ∃ c t, write depth d = c :: t ∧ openingOf c = d.opening := by
  cases hd with
  | null => exact ⟨_, _, hw.null depth, by decide⟩
  | bool value =>
      rw [hw.bool]
      cases value with
      | true => exact ⟨_, _, rfl, by decide⟩
      | false => exact ⟨_, _, rfl, by decide⟩
  | int value =>
      rw [hw.int]
      refine openingOf_numeral ?_ (isJsonChar_toString value)
      rw [Number.toList_toString_int]
      exact List.append_ne_nil_of_right_ne_nil _ Nat.toDigits_ne_nil
  | float hfinite =>
      rw [hw.float, number_of_isFinite hfinite]
      refine openingOf_numeral ?_ (Double.isJsonChar_json_text hfinite)
      obtain ⟨c, _, hc⟩ := Double.exists_mark_mem_json_text hfinite
      exact List.ne_nil_of_mem hc
  | text value => exact ⟨_, _, hw.text depth value, (by decide : openingOf '"' = '"')⟩
  | list hitems =>
      obtain ⟨t, ht⟩ := bracketed_head _ _ _ _ _ _
      exact ⟨_, t, (hw.list depth _).trans ht, (by decide : openingOf '[' = '[')⟩
  | record hentries =>
      obtain ⟨t, ht⟩ := bracketed_head _ _ _ _ _ _
      exact ⟨_, t, (hw.record depth _).trans ht, (by decide : openingOf '\x7b' = '\x7b')⟩

/-- Values written alike are of one kind. -/
theorem IsWriter.opening_eq (hw : IsWriter line gap write) (depth : Nat) {d e : Datum}
    (hd : d.HoldsFinite) (he : e.HoldsFinite) {r r' : List Char}
    (h : write depth d ++ r = write depth e ++ r') : d.opening = e.opening := by
  obtain ⟨c, t, hc, hopening⟩ := hw.head depth hd
  obtain ⟨c', t', hc', hopening'⟩ := hw.head depth he
  rw [hc, hc'] at h
  rw [← hopening, ← hopening', (List.cons.inj h).1]

/-- No value begins with a closing bracket. -/
theorem IsWriter.append_ne (hw : IsWriter line gap write) (depth : Nat) {d : Datum}
    (hd : d.HoldsFinite) (r t : List Char) : write depth d ++ r ≠ ']' :: t := by
  obtain ⟨c, s, hc, hopening⟩ := hw.head depth hd
  rw [hc]
  intro heq
  rw [(List.cons.inj heq).1] at hopening
  have hbracket : openingOf ']' = ']' := by decide
  rw [hbracket] at hopening
  cases d <;> exact absurd hopening (by simp [opening])

/-! ### Written values -/

theorem unambiguous_truth {b b' : Bool} {r r' : List Char} (h : truth b ++ r = truth b' ++ r') :
    b = b' ∧ r = r' := by
  cases b <;> cases b' <;> simp [truth] at h ⊢ <;> exact h

theorem unambiguous_int :
    Unambiguous (fun _ => True) valueStop fun n : Int => (toString n).toList :=
  unambiguous_numeral (fun _ _ _ _ h => Number.toString_int_inj h)
    fun n _ => isJsonChar_toString n

theorem unambiguous_float :
    Unambiguous (fun x : Double => x.isFinite = true) valueStop NumberLayout.json.text :=
  unambiguous_numeral (fun _ _ hx hy h => Double.json_text_inj hx hy h)
    fun _ hx => Double.isJsonChar_json_text hx

/-- Whole numbers have neither a point nor an exponent. -/
theorem int_append_ne_float {n : Int} {x : Double} (hx : x.isFinite = true) {r r' : List Char}
    (hr : StartsIn valueStop r) (hr' : StartsIn valueStop r') :
    (toString n).toList ++ r ≠ JsonText.number x ++ r' := by
  rw [number_of_isFinite hx]
  intro heq
  have hrun : Unambiguous (fun s => ∀ c ∈ s, Double.isJsonChar c = true) valueStop id :=
    unambiguous_numeral (fun _ _ _ _ h => h) (fun _ hs => hs)
  have htexts := (hrun _ _ r r' (isJsonChar_toString n) (Double.isJsonChar_json_text hx) hr hr'
    heq).1
  obtain ⟨c, hmark, hc⟩ := Double.exists_mark_mem_json_text hx
  have hnot : ∀ c ∈ ['.', 'e'], ¬ (Number.isDigit c = true ∨ c = '-') := by
    simp [Number.isDigit]
  exact hnot c hmark (Number.isDigit_or_minus_of_mem_toString c (htexts ▸ hc))

section Nested

variable {valid : Datum → Prop} {depth : Nat}

/-- Lists of items that are told apart are told apart. -/
theorem IsWriter.unambiguous_list (hw : IsWriter line gap write)
    (hvalid : ∀ d, valid d → d.HoldsFinite)
    (h : Unambiguous valid valueStop (write (depth + 1))) :
    Unambiguous (fun items => ∀ item ∈ items, valid item) valueStop
      fun items => write depth (.list items) := by
  have hitems := h.anti [',', ']', '\n'] (by simp [valueStop])
  rw [funext (hw.list depth)]
  exact unambiguous_bracketed hitems (by decide) (by decide)
    (fun item hitem => hw.append_ne _ (hvalid item hitem)) (hw.blank _) (hw.blank _) valueStop

/-- Records with values that are told apart are told apart. -/
theorem IsWriter.unambiguous_record (hw : IsWriter line gap write)
    (h : Unambiguous valid valueStop (write (depth + 1))) :
    Unambiguous (fun entries => ∀ entry ∈ entries, valid entry.2) valueStop
      fun entries => write depth (.record entries) := by
  have hentries := unambiguous_entryText
    (h.anti [',', '\x7d', '\n'] (by simp [valueStop])) gap
  rw [funext (hw.record depth)]
  exact unambiguous_bracketed hentries (by decide) (by decide)
    (fun _ _ _ _ heq => absurd (List.cons.inj heq).1 (by decide)) (hw.blank _) (hw.blank _) valueStop

end Nested

theorem sizeOf_item_lt {items : List Datum} {item : Datum} (h : item ∈ items) :
    sizeOf item < sizeOf (Datum.list items) := by
  have hmem := List.sizeOf_lt_of_mem h
  rw [Datum.list.sizeOf_spec]
  omega

theorem sizeOf_entry_lt {entries : List (String × Datum)} {entry : String × Datum}
    (h : entry ∈ entries) : sizeOf entry.2 < sizeOf (Datum.record entries) := by
  have hmem := List.sizeOf_lt_of_mem h
  have hpair : sizeOf entry = 1 + sizeOf entry.1 + sizeOf entry.2 := rfl
  rw [Datum.record.sizeOf_spec]
  omega

/-- A written value and what follows it determine each other. The induction is on a bound for the
size, because items and entries are valid for a smaller one. -/
theorem IsWriter.unambiguous (hw : IsWriter line gap write) (bound depth : Nat) :
    Unambiguous (fun d => d.HoldsFinite ∧ sizeOf d < bound) valueStop (write depth) := by
  induction bound generalizing depth with
  | zero => exact fun a _ _ _ ha => absurd ha.2 (Nat.not_lt_zero _)
  | succ bound ih =>
      intro a b r r' ⟨ha, hsize⟩ ⟨hb, hsize'⟩ hr hr' heq
      have hopening := hw.opening_eq depth ha hb heq
      have hitem : ∀ {xs : List Datum}, (∀ x ∈ xs, x.HoldsFinite) →
          sizeOf (Datum.list xs) < bound + 1 → ∀ x ∈ xs, x.HoldsFinite ∧ sizeOf x < bound :=
        fun hxs hsize x hx => ⟨hxs x hx, by have := sizeOf_item_lt hx; omega⟩
      have hentry : ∀ {xs : List (String × Datum)}, (∀ x ∈ xs, x.2.HoldsFinite) →
          sizeOf (Datum.record xs) < bound + 1 →
          ∀ x ∈ xs, x.2.HoldsFinite ∧ sizeOf x.2 < bound :=
        fun hxs hsize x hx => ⟨hxs x hx, by have := sizeOf_entry_lt hx; omega⟩
      cases ha with
      | null =>
          cases hb with
          | null =>
              rw [hw.null] at heq
              exact ⟨rfl, List.append_cancel_left heq⟩
          | _ => exact absurd hopening (by simp [opening])
      | bool value =>
          cases hb with
          | bool value' =>
              rw [hw.bool, hw.bool] at heq
              obtain ⟨rfl, hrest⟩ := unambiguous_truth heq
              exact ⟨rfl, hrest⟩
          | _ => exact absurd hopening (by simp [opening])
      | int value =>
          cases hb with
          | int value' =>
              rw [hw.int, hw.int] at heq
              obtain ⟨rfl, hrest⟩ := unambiguous_int _ _ _ _ trivial trivial hr hr' heq
              exact ⟨rfl, hrest⟩
          | float hfinite =>
              rw [hw.int, hw.float] at heq
              exact absurd heq (int_append_ne_float hfinite hr hr')
          | _ => exact absurd hopening (by simp [opening])
      | float hfinite =>
          cases hb with
          | float hfinite' =>
              rw [hw.float, hw.float, number_of_isFinite hfinite,
                number_of_isFinite hfinite'] at heq
              obtain ⟨rfl, hrest⟩ := unambiguous_float _ _ _ _ hfinite hfinite' hr hr' heq
              exact ⟨rfl, hrest⟩
          | int value =>
              rw [hw.int, hw.float] at heq
              exact absurd heq.symm (int_append_ne_float hfinite hr' hr)
          | _ => exact absurd hopening (by simp [opening])
      | text value =>
          cases hb with
          | text value' =>
              rw [hw.text, hw.text] at heq
              obtain ⟨rfl, hrest⟩ := unambiguous_quoted _ _ _ _ _ trivial trivial hr hr' heq
              exact ⟨rfl, hrest⟩
          | _ => exact absurd hopening (by simp [opening])
      | list hxs =>
          cases hb with
          | list hys =>
              obtain ⟨rfl, hrest⟩ := hw.unambiguous_list (fun _ h => h.1) (ih (depth + 1)) _ _ _ _
                (hitem hxs hsize) (hitem hys hsize') hr hr' heq
              exact ⟨rfl, hrest⟩
          | _ => exact absurd hopening (by simp [opening])
      | record hxs =>
          cases hb with
          | record hys =>
              obtain ⟨rfl, hrest⟩ := hw.unambiguous_record (ih (depth + 1)) _ _ _ _
                (hentry hxs hsize) (hentry hys hsize') hr hr' heq
              exact ⟨rfl, hrest⟩
          | _ => exact absurd hopening (by simp [opening])

/-- The text belongs to one datum only. -/
theorem IsWriter.eq (hw : IsWriter line gap write) (depth : Nat) {d e : Datum}
    (hd : d.HoldsFinite) (he : e.HoldsFinite) (h : write depth d = write depth e) : d = e :=
  (hw.unambiguous (sizeOf d + sizeOf e + 1) depth).eq ⟨hd, by omega⟩ ⟨he, by omega⟩ h

end Writer

/-! ### The two forms -/

/-- A list written item by item with commas in between. -/
theorem eq_intercalate_of_steps {α : Type} {joined : List α → List Char} {write : α → List Char}
    (hnil : joined [] = []) (hone : ∀ x, joined [x] = write x)
    (hmore : ∀ x y ys, joined (x :: y :: ys) = write x ++ ',' :: joined (y :: ys))
    (xs : List α) : joined xs = [','].intercalate (xs.map write) := by
  induction xs with
  | nil => exact hnil
  | cons x xs ih =>
      cases xs with
      | nil => rw [hone, List.map_singleton, List.intercalate_singleton]
      | cons y ys =>
          rw [hmore, ih, List.map_cons, List.map_cons, List.map_cons, List.intercalate_cons_cons,
            List.append_assoc]
          rfl

theorem isWriter_compact : IsWriter (fun _ => []) [] fun _ => compact where
  blank _ := startsIn_nil _
  null _ := rfl
  bool _ _ := rfl
  int _ _ := rfl
  float _ _ := rfl
  text _ _ := rfl
  list _ items := by
    have hitems : compactItems items
        = [','].intercalate (items.map fun item => [] ++ compact item) :=
      eq_intercalate_of_steps rfl (fun _ => rfl) (fun _ _ _ => rfl) items
    cases items with
    | nil => rfl
    | cons item rest =>
        rw [compact, hitems, bracketed, List.append_nil]
        exact List.cons_ne_nil _ _
  record _ entries := by
    have hentries : compactEntries entries
        = [','].intercalate (entries.map fun entry => [] ++ entryText [] compact entry) :=
      eq_intercalate_of_steps rfl (fun _ => rfl) (fun _ _ _ => rfl) entries
    cases entries with
    | nil => rfl
    | cons entry rest =>
        rw [compact, hentries, bracketed, List.append_nil]
        exact List.cons_ne_nil _ _

theorem isWriter_pretty : IsWriter newline [' '] prettyAt where
  blank _ := startsIn_cons (List.mem_singleton.mpr rfl) _
  null _ := rfl
  bool _ _ := rfl
  int _ _ := rfl
  float _ _ := rfl
  text _ _ := rfl
  list depth items := by
    have hitems : prettyItems (depth + 1) items = [','].intercalate
        (items.map fun item => newline (depth + 1) ++ prettyAt (depth + 1) item) :=
      eq_intercalate_of_steps rfl (fun _ => rfl) (fun _ _ _ => rfl) items
    cases items with
    | nil => rfl
    | cons item rest =>
        rw [prettyAt, hitems, bracketed]
        all_goals exact List.cons_ne_nil _ _
  record depth entries := by
    have hentries : prettyEntries (depth + 1) entries = [','].intercalate
        (entries.map fun entry =>
          newline (depth + 1) ++ entryText [' '] (prettyAt (depth + 1)) entry) := by
      refine eq_intercalate_of_steps rfl (fun _ => ?_) (fun _ _ _ => ?_) entries
      · exact List.append_assoc _ _ _
      · rw [prettyEntries, List.append_assoc (newline _)]
        · rfl
        · exact List.cons_ne_nil _ _
    cases entries with
    | nil => rfl
    | cons entry rest =>
        rw [prettyAt, hentries, bracketed]
        all_goals exact List.cons_ne_nil _ _

/-- Data with finite numbers are determined by their compact form. -/
theorem compact_inj {d e : Datum} (hd : d.HoldsFinite) (he : e.HoldsFinite)
    (h : d.compact = e.compact) : d = e :=
  isWriter_compact.eq 0 hd he h

/-- Data with finite numbers are determined by their pretty form. -/
theorem pretty_inj {d e : Datum} (hd : d.HoldsFinite) (he : e.HoldsFinite)
    (h : d.pretty = e.pretty) : d = e :=
  isWriter_pretty.eq 0 hd he h

end Datum

end IndexQuery
