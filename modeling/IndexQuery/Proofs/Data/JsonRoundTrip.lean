import IndexQuery.Proofs.Data.JsonTexts
set_option autoImplicit false

/-! # Data read back from their JSON text

Data without floating-point numbers, with whole numbers of the 64-bit ranges and with lists and
records nested at most 127 deep are read back from their JSON text, up to one thing: the entries of
records come out in the order of their keys (`ofJson?_compact`, `ofJson?_pretty`). Who looks entries
up by their keys does not notice, as long as no key occurs twice (`lookup_entriesInOrder`). -/

namespace IndexQuery

open QueryText (StartsIn startsIn_nil startsIn_cons)

/-! ## Numbers -/

namespace Number

theorem exists_cons_toDigits (n : Nat) : ∃ c rest, Nat.toDigits 10 n = c :: rest :=
  List.exists_cons_of_ne_nil Nat.toDigits_ne_nil

/-- Only zero is written with a zero in front. -/
theorem eq_zero_of_head_toDigits {n : Nat} (h : (Nat.toDigits 10 n).head? = some '0') : n = 0 := by
  induction n using Nat.strong_induction_on with
  | _ n ih =>
      rw [Nat.toDigits_eq_if (by decide)] at h
      split at h
      · next hn =>
          have hdigits : ∀ d < 10, Nat.digitChar d = '0' → d = 0 := by decide
          exact hdigits n hn (by simpa using h)
      · next hn =>
          obtain ⟨c, rest, hcut⟩ := exists_cons_toDigits (n / 10)
          rw [hcut] at h
          have hzero := ih (n / 10) (by omega) (by rw [hcut]; exact h)
          omega

end Number

namespace JsonReading

open Number (isDigit ofDigits)
open JsonText (valueStop)

/-! ## White space -/

/-- White space in front is skipped. -/
theorem skip_append {blanks : List Char} (h : ∀ c ∈ blanks, isSpace c = true) (s : List Char) :
    skip (blanks ++ s) = skip s :=
  List.dropWhile_append_of_pos h

theorem skip_cons {c : Char} (hc : isSpace c = false) (s : List Char) : skip (c :: s) = c :: s :=
  List.dropWhile_cons_of_neg (by simp [hc])

theorem takeValue_append {blanks : List Char} (h : ∀ c ∈ blanks, isSpace c = true)
    (fuel depth : Nat) (s : List Char) :
    takeValue fuel depth (blanks ++ s) = takeValue fuel depth s := by
  cases fuel with
  | zero => rfl
  | succ fuel => rw [takeValue, takeValue, skip_append h]

theorem takeEntries_append {blanks : List Char} (h : ∀ c ∈ blanks, isSpace c = true)
    (fuel depth : Nat) (entries : List (String × Datum)) (s : List Char) :
    takeEntries fuel depth entries (blanks ++ s) = takeEntries fuel depth entries s := by
  cases fuel with
  | zero => rfl
  | succ fuel => rw [takeEntries, takeEntries, skip_append h]

/-! ## Numbers -/

theorem not_isDigit_of_startsIn {r : List Char} (hr : StartsIn valueStop r) :
    ∀ c ∈ r.head?, isDigit c = false := by
  have hstop : ∀ c ∈ valueStop, isDigit c = false := by
    simp [valueStop, isDigit]
  exact fun c hc => hstop c (hr c hc)

theorem takeWhile_digits {n : Nat} {r : List Char} (hr : StartsIn valueStop r) :
    (Nat.toDigits 10 n ++ r).takeWhile isDigit = Nat.toDigits 10 n ∧
      (Nat.toDigits 10 n ++ r).dropWhile isDigit = r := by
  have hdigits : ∀ c ∈ Nat.toDigits 10 n, isDigit c = true :=
    fun c hc => Number.isDigit_of_mem_toDigits hc
  rw [List.takeWhile_append_of_pos hdigits, List.dropWhile_append_of_pos hdigits]
  cases r with
  | nil => simp
  | cons c r =>
      have hc : ¬ isDigit c = true := by simp [not_isDigit_of_startsIn hr c rfl]
      rw [List.takeWhile_cons_of_neg hc, List.dropWhile_cons_of_neg hc, List.append_nil]
      exact ⟨rfl, rfl⟩

/-- Behind a whole number there is neither a fraction nor an exponent. -/
theorem takeFraction_of_startsIn {r : List Char} (hr : StartsIn valueStop r) :
    takeFraction r = some (none, r) ∧ takeExponent r = some (none, r) := by
  have hstop : ∀ c ∈ valueStop, c ≠ '.' ∧ c ≠ 'e' ∧ c ≠ 'E' := by
    simp [valueStop]
  cases r with
  | nil => exact ⟨rfl, rfl⟩
  | cons c r =>
      obtain ⟨hpoint, he, hE⟩ := hstop c hr.head_mem
      constructor
      · rw [takeFraction]
        exact fun _ h => absurd (List.cons.inj h).1 hpoint
      · rw [takeExponent, if_neg]
        simp [he, hE]

/-- A whole number of the 64-bit ranges is read back. -/
theorem takeNumber_int {n : Int} (hn : -2 ^ 63 ≤ n ∧ n < 2 ^ 64) {r : List Char}
    (hr : StartsIn valueStop r) :
    takeNumber ((toString n).toList ++ r) = some (.int n, r) := by
  -- the reader refuses digits with a zero in front of others
  have hzeros : (Nat.toDigits 10 n.natAbs).head? = some '0' →
      (Nat.toDigits 10 n.natAbs).length = 1 := by
    intro hzero
    rw [Number.eq_zero_of_head_toDigits hzero]
    rfl
  obtain ⟨htake, hdrop⟩ := takeWhile_digits (n := n.natAbs) hr
  obtain ⟨hfraction, hexponent⟩ := takeFraction_of_startsIn hr
  have hwhole : wholeNumber? (decide (n < 0)) n.natAbs (Nat.toDigits 10 n.natAbs)
      = some (.int n) := by
    by_cases hneg : n < 0
    · have hcast : -(n.natAbs : Int) = n := by omega
      have hpos : n.natAbs ≠ 0 := by omega
      have hle : n.natAbs ≤ 2 ^ 63 := by omega
      rw [wholeNumber?, if_neg (by simp [hneg]), if_pos (by simp [hneg, hpos, hle]), hcast]
    · have hcast : (n.natAbs : Int) = n := by omega
      have hlt : n.natAbs < 2 ^ 64 := by omega
      rw [wholeNumber?, if_pos (by simp [hneg, hlt]), hcast]
  rw [Number.toList_toString_int, Double.intText]
  by_cases hneg : n < 0
  · rw [decide_eq_true hneg] at hwhole
    rw [if_pos hneg, List.singleton_append, List.cons_append, takeNumber]
    simpa [htake, hdrop, hfraction, hexponent, hwhole, Number.ofDigits_toDigits] using hzeros
  · rw [decide_eq_false hneg] at hwhole
    rw [if_neg hneg, List.nil_append, takeNumber]
    · simpa [htake, hdrop, hfraction, hexponent, hwhole, Number.ofDigits_toDigits] using hzeros
    · intro rest h
      have hminus : '-' ∈ Nat.toDigits 10 n.natAbs := by
        obtain ⟨c, digits, hcut⟩ := Number.exists_cons_toDigits n.natAbs
        rw [hcut] at h ⊢
        rw [(List.cons.inj h).1]
        exact List.mem_cons_self
      exact absurd (Number.isDigit_of_mem_toDigits hminus) (by decide)

/-! ## Single values -/

/-- What begins with a digit or a minus is taken for a number. -/
theorem takeValue_numeral {c : Char} (hc : isDigit c = true ∨ c = '-') (fuel depth : Nat)
    (s : List Char) : takeValue (fuel + 1) depth (c :: s) = takeNumber (c :: s) := by
  have hother : ∀ d ∈ [' ', '\n', '\t', '\r', 'n', 't', 'f', '"', '[', '\x7b'], c ≠ d := by
    rintro d hd rfl
    have hnot : ∀ d ∈ [' ', '\n', '\t', '\r', 'n', 't', 'f', '"', '[', '\x7b'],
        ¬ (isDigit d = true ∨ d = '-') := by
      simp [isDigit]
    exact hnot c hd hc
  have hspace : isSpace c = false := by
    simp [isSpace, hother]
  rw [takeValue, skip_cons hspace]
  split
  all_goals first
    | rfl
    | next h => exact absurd (List.cons.inj h).1 (hother _ (by simp))

theorem takeValue_int {n : Int} (hn : -2 ^ 63 ≤ n ∧ n < 2 ^ 64) (fuel depth : Nat)
    {r : List Char} (hr : StartsIn valueStop r) :
    takeValue (fuel + 1) depth ((toString n).toList ++ r) = some (.int n, r) := by
  have hne : (toString n).toList ≠ [] := by
    rw [Number.toList_toString_int]
    exact List.append_ne_nil_of_right_ne_nil _ Nat.toDigits_ne_nil
  obtain ⟨c, rest, hcut⟩ := List.exists_cons_of_ne_nil hne
  have hc := Number.isDigit_or_minus_of_mem_toString c (hcut ▸ List.mem_cons_self)
  have hnumber := takeNumber_int hn hr
  rw [hcut, List.cons_append] at hnumber ⊢
  rw [takeValue_numeral hc, hnumber]

theorem length_le_quoted (s : List Char) : s.length ≤ (s.flatMap JsonText.quotedChar).length := by
  induction s with
  | nil => exact Nat.zero_le _
  | cons c s ih =>
      have hchar : 0 < (JsonText.quotedChar c).length := by
        rcases quotedChar_cases c with ⟨_, _, _, h⟩ | ⟨_, h⟩ | ⟨_, _, _, h⟩ <;> simp [h]
      rw [List.flatMap_cons, List.length_append, List.length_cons]
      omega

/-- A quoted text is not longer than what is left, so it is read to its end. -/
theorem takeQuoted_rest (s : List Char) (r : List Char) :
    takeQuoted ((s.flatMap JsonText.quotedChar ++ '"' :: r).length + 1)
      (s.flatMap JsonText.quotedChar ++ '"' :: r) = some (s, r) := by
  have hlength := length_le_quoted s
  apply takeQuoted_quoted
  rw [List.length_append, List.length_cons]
  omega

theorem quoted_append (s : String) (r : List Char) :
    JsonText.quoted s ++ r = '"' :: (s.toList.flatMap JsonText.quotedChar ++ '"' :: r) := by
  simp [JsonText.quoted]

theorem takeValue_quoted (s : String) (fuel depth : Nat) (r : List Char) :
    takeValue (fuel + 1) depth (JsonText.quoted s ++ r) = some (.text s, r) := by
  rw [quoted_append, takeValue, skip_cons (by decide)]
  show (takeQuoted (_ + 1) _).map _ = _
  rw [takeQuoted_rest]
  show some (Datum.text (String.ofList s.toList), r) = _
  rw [String.ofList_toList]

/-- Behind a bracket that is not closed at once there are items. -/
theorem takeValue_bracket {fuel depth : Nat} {s : List Char} (hs : ∀ t, skip s ≠ ']' :: t) :
    takeValue (fuel + 1) (depth + 1) ('[' :: s)
      = (takeItems fuel depth s).map fun (items, rest) => (.list items, rest) := by
  rw [takeValue, skip_cons (by decide)]
  split
  all_goals first
    | next h => exact absurd (List.cons.inj h).1 (by decide)
    | next rest h =>
        obtain ⟨-, rfl⟩ := List.cons.inj h
        dsimp only
        split
        · next hclosed => exact absurd hclosed (hs _)
        · rfl
    | next h _ => exact absurd rfl (h s)

/-- Behind a brace that is not closed at once there are entries. -/
theorem takeValue_brace {fuel depth : Nat} {s : List Char} (hs : ∀ t, skip s ≠ '\x7d' :: t) :
    takeValue (fuel + 1) (depth + 1) ('\x7b' :: s)
      = (takeEntries fuel depth [] s).map fun (entries, rest) => (.record entries, rest) := by
  rw [takeValue, skip_cons (by decide)]
  split
  all_goals first
    | next h => exact absurd (List.cons.inj h).1 (by decide)
    | next rest h =>
        obtain ⟨-, rfl⟩ := List.cons.inj h
        dsimp only
        split
        · next hclosed => exact absurd hclosed (hs _)
        · rfl
    | next h => exact absurd rfl (h s)

/-! ## Items and entries -/

section Steps

variable {fuel depth : Nat} {s s' rest rest' r : List Char}

theorem takeItems_last {item : Datum} (hvalue : takeValue fuel depth s = some (item, rest))
    (hrest : skip rest = ']' :: r) : takeItems (fuel + 1) depth s = some ([item], r) := by
  rw [takeItems, hvalue, Option.bind_eq_bind, Option.bind_some]
  dsimp only
  rw [hrest]
  rfl

theorem takeItems_more {item : Datum} {items : List Datum}
    (hvalue : takeValue fuel depth s = some (item, rest)) (hrest : skip rest = ',' :: rest')
    (hitems : takeItems fuel depth rest' = some (items, r)) :
    takeItems (fuel + 1) depth s = some (item :: items, r) := by
  rw [takeItems, hvalue, Option.bind_eq_bind, Option.bind_some]
  dsimp only
  rw [hrest]
  show (takeItems fuel depth rest').bind _ = _
  rw [hitems]
  rfl

variable {entries : List (String × Datum)} {value : Datum}

/-- An entry is taken over, and what follows its value says whether there are more. -/
theorem takeEntries_quoted (key : String) (hvalue : takeValue fuel depth s = some (value, rest)) :
    takeEntries (fuel + 1) depth entries (JsonText.quoted key ++ ':' :: s)
      = match skip rest with
        | ',' :: rest => takeEntries fuel depth (putEntry key value entries) rest
        | '\x7d' :: rest => some (putEntry key value entries, rest)
        | _ => none := by
  rw [takeEntries, quoted_append, skip_cons (by decide)]
  show (takeQuoted (_ + 1) _).bind _ = _
  rw [takeQuoted_rest, Option.bind_some]
  dsimp only
  rw [skip_cons (by decide)]
  show (takeValue fuel depth s).bind _ = _
  rw [hvalue, String.ofList_toList]
  rfl

theorem takeEntries_last (key : String) (hvalue : takeValue fuel depth s = some (value, rest))
    (hrest : skip rest = '\x7d' :: r) :
    takeEntries (fuel + 1) depth entries (JsonText.quoted key ++ ':' :: s)
      = some (putEntry key value entries, r) := by
  rw [takeEntries_quoted key hvalue, hrest]
  rfl

theorem takeEntries_more (key : String) (hvalue : takeValue fuel depth s = some (value, rest))
    (hrest : skip rest = ',' :: rest') :
    takeEntries (fuel + 1) depth entries (JsonText.quoted key ++ ':' :: s)
      = takeEntries fuel depth (putEntry key value entries) rest' := by
  rw [takeEntries_quoted key hvalue, hrest]
  rfl

end Steps

end JsonReading

/-! ## Data as they are read back -/

namespace Datum

open JsonReading (putEntry takeValue takeItems takeEntries skip isSpace skip_append skip_cons)
open JsonText (valueStop bracketed bracketed_append_of_ne_nil entryText quoted)

/-- Data that are read back: no floating-point numbers, whole numbers of the 64-bit ranges, and
lists and records at most `depth` deep. -/
inductive Readable : Nat → Datum → Prop where
  | null {depth : Nat} : Readable depth .null
  | bool {depth : Nat} (value : Bool) : Readable depth (.bool value)
  | int {depth : Nat} {value : Int} (h : -2 ^ 63 ≤ value ∧ value < 2 ^ 64) :
      Readable depth (.int value)
  | text {depth : Nat} (value : String) : Readable depth (.text value)
  | list {depth : Nat} {items : List Datum} (h : ∀ item ∈ items, Readable depth item) :
      Readable (depth + 1) (.list items)
  | record {depth : Nat} {entries : List (String × Datum)}
      (h : ∀ entry ∈ entries, Readable depth entry.2) : Readable (depth + 1) (.record entries)

theorem Readable.holdsFinite {depth : Nat} {d : Datum} (hd : Readable depth d) :
    d.HoldsFinite := by
  induction hd with
  | null => exact .null
  | bool value => exact .bool value
  | int h => exact .int _
  | text value => exact .text value
  | list h ih => exact .list ih
  | record h ih => exact .record ih

mutual

/-- The datum with the entries of its records put in the order of their keys. -/
def inOrder : Datum → Datum
  | .list items => .list (itemsInOrder items)
  | .record entries => .record (entriesInOrder [] entries)
  | d => d

/-- The items of a list, with entries put in order inside them. -/
def itemsInOrder : List Datum → List Datum
  | [] => []
  | item :: rest => item.inOrder :: itemsInOrder rest

/-- The entries of a record, put one by one at their place among the ones that are there. -/
def entriesInOrder (entries : List (String × Datum)) :
    List (String × Datum) → List (String × Datum)
  | [] => entries
  | (key, d) :: rest => entriesInOrder (putEntry key d.inOrder entries) rest

end

/-! ### Keys -/

theorem lookup_cons_eq_if (key : String) (d : Datum) (entries : List (String × Datum))
    (k : String) :
    ((key, d) :: entries).lookup k = if k = key then some d else entries.lookup k := by
  by_cases hk : k = key
  · rw [if_pos hk, hk, List.lookup_cons_self]
  · rw [if_neg hk, List.lookup_cons, beq_false_of_ne hk]

theorem lookup_putEntry (key : String) (d : Datum) (entries : List (String × Datum)) (k : String) :
    (putEntry key d entries).lookup k = if k = key then some d else entries.lookup k := by
  induction entries with
  | nil => exact lookup_cons_eq_if key d [] k
  | cons entry rest ih =>
      obtain ⟨key', d'⟩ := entry
      rw [putEntry]
      split
      · exact lookup_cons_eq_if key d _ k
      split
      · next heq =>
          subst heq
          rw [lookup_cons_eq_if, lookup_cons_eq_if]
          split <;> rfl
      · next hne =>
          rw [lookup_cons_eq_if, lookup_cons_eq_if, ih]
          by_cases hk : k = key'
          · rw [if_pos hk, if_pos hk, if_neg fun h => hne (h.symm.trans hk)]
          · rw [if_neg hk, if_neg hk]

/-- Putting the entries in order does not change what stands under a key. -/
theorem lookup_entriesInOrder {entries : List (String × Datum)}
    (hkeys : (entries.map Prod.fst).Nodup) (before : List (String × Datum)) (k : String) :
    (entriesInOrder before entries).lookup k
      = ((entries.lookup k).map inOrder).or (before.lookup k) := by
  induction entries generalizing before with
  | nil => rfl
  | cons entry rest ih =>
      obtain ⟨key, d⟩ := entry
      obtain ⟨hkey, hrest⟩ := List.nodup_cons.mp hkeys
      rw [entriesInOrder, ih hrest, lookup_putEntry, lookup_cons_eq_if]
      by_cases hk : k = key
      · have hnone : rest.lookup k = none := by
          rw [List.lookup_eq_none_iff]
          intro entry hentry
          rw [bne_iff_ne, hk]
          exact fun heq => hkey (List.mem_map.mpr ⟨entry, hentry, heq.symm⟩)
        rw [hnone, if_pos hk, if_pos hk]
        rfl
      · rw [if_neg hk, if_neg hk]

/-! ### Written data -/

/-- What reading a written value gives, whatever may stand behind it. -/
def IsReadBack (write : Datum → List Char) (depth : Nat) (d : Datum) : Prop :=
  ∀ (fuel : Nat) (r : List Char), StartsIn valueStop r → (write d).length ≤ fuel →
    takeValue (fuel + 1) depth (write d ++ r) = some (d.inOrder, r)

section Parts

variable {before after gap : List Char} {write : Datum → List Char} {depth fuel : Nat}

/-- The white space and the closing bracket behind the last item may stand behind a value. -/
theorem startsIn_closing (hafter : StartsIn ['\n'] after) {closing : Char}
    (hclosing : closing ∈ valueStop) (r : List Char) :
    StartsIn valueStop (after ++ closing :: r) := by
  cases after with
  | nil => exact startsIn_cons hclosing r
  | cons c after =>
      exact startsIn_cons (by rw [List.mem_singleton.mp hafter.head_mem]; decide) _

theorem joined_cons_cons {α : Type} (write : α → List Char) (x y : α) (xs : List α) :
    [','].intercalate ((x :: y :: xs).map fun item => before ++ write item)
      = before ++ (write x
        ++ ',' :: [','].intercalate ((y :: xs).map fun item => before ++ write item)) := by
  rw [List.map_cons, List.map_cons, List.intercalate_cons_cons]
  simp only [List.append_assoc]
  rfl

/-- Items with commas in between are read one by one. Each item spends one unit of fuel and is at
least as long as the comma behind it, so the length of the text is enough. -/
theorem takeItems_joined (hbefore : ∀ c ∈ before, isSpace c = true)
    (hafter : StartsIn ['\n'] after) (hblank : ∀ c ∈ after, isSpace c = true)
    {items : List Datum} (hne : items ≠ []) (hitems : ∀ item ∈ items, IsReadBack write depth item)
    (hfuel : ([','].intercalate (items.map fun item => before ++ write item)).length + 1 < fuel)
    (r : List Char) :
    takeItems fuel depth
        ([','].intercalate (items.map fun item => before ++ write item) ++ (after ++ ']' :: r))
      = some (itemsInOrder items, r) := by
  induction items generalizing fuel with
  | nil => exact absurd rfl hne
  | cons item rest ih =>
      obtain ⟨fuel, rfl⟩ := Nat.exists_eq_add_of_le' (show 2 ≤ fuel by omega)
      have hitem := hitems item List.mem_cons_self
      cases rest with
      | nil =>
          rw [List.map_singleton, List.intercalate_singleton, List.length_append] at hfuel
          rw [List.map_singleton, List.intercalate_singleton, List.append_assoc]
          have hread := hitem fuel (after ++ ']' :: r)
            (startsIn_closing hafter (by decide) r) (by omega)
          rw [← JsonReading.takeValue_append hbefore] at hread
          exact JsonReading.takeItems_last hread
            ((skip_append hblank _).trans (skip_cons (by decide) r))
      | cons next rest =>
          rw [joined_cons_cons, List.length_append, List.length_append, List.length_cons] at hfuel
          rw [joined_cons_cons]
          simp only [List.append_assoc, List.cons_append]
          -- a comma may stand behind a value, whatever follows the comma
          have hread : ∀ s, takeValue (fuel + 1) depth (before ++ (write item ++ ',' :: s))
              = some (item.inOrder, ',' :: s) := by
            intro s
            rw [JsonReading.takeValue_append hbefore]
            exact hitem fuel _ (startsIn_cons (by decide) s) (by omega)
          exact JsonReading.takeItems_more (hread _) (skip_cons (by decide) _)
            (ih (List.cons_ne_nil _ _) (fun item h => hitems item (List.mem_cons_of_mem _ h))
              (by omega))

/-- Entries are read like items, and put in order on the way. -/
theorem takeEntries_joined (hbefore : ∀ c ∈ before, isSpace c = true)
    (hafter : StartsIn ['\n'] after) (hblank : ∀ c ∈ after, isSpace c = true)
    (hgap : ∀ c ∈ gap, isSpace c = true) {entries : List (String × Datum)} (hne : entries ≠ [])
    (hentries : ∀ entry ∈ entries, IsReadBack write depth entry.2)
    (hfuel : ([','].intercalate
      (entries.map fun entry => before ++ entryText gap write entry)).length + 1 < fuel)
    (sofar : List (String × Datum)) (r : List Char) :
    takeEntries fuel depth sofar
        ([','].intercalate (entries.map fun entry => before ++ entryText gap write entry)
          ++ (after ++ '\x7d' :: r))
      = some (entriesInOrder sofar entries, r) := by
  induction entries generalizing fuel sofar with
  | nil => exact absurd rfl hne
  | cons entry rest ih =>
      obtain ⟨key, d⟩ := entry
      obtain ⟨fuel, rfl⟩ := Nat.exists_eq_add_of_le' (show 2 ≤ fuel by omega)
      have hvalue : IsReadBack write depth d := hentries (key, d) List.mem_cons_self
      have hlength : (entryText gap write (key, d)).length
          = (quoted key).length + (gap.length + (write d).length + 1) := by
        simp [entryText]
      cases rest with
      | nil =>
          rw [List.map_singleton, List.intercalate_singleton, List.length_append, hlength] at hfuel
          rw [List.map_singleton, List.intercalate_singleton, List.append_assoc,
            JsonReading.takeEntries_append hbefore, entryText]
          simp only [List.append_assoc, List.cons_append]
          have hread := hvalue fuel (after ++ '\x7d' :: r)
            (startsIn_closing hafter (by decide) r) (by omega)
          rw [← JsonReading.takeValue_append hgap] at hread
          exact JsonReading.takeEntries_last key hread
            ((skip_append hblank _).trans (skip_cons (by decide) r))
      | cons next rest =>
          rw [joined_cons_cons, List.length_append, List.length_append, List.length_cons,
            hlength] at hfuel
          rw [joined_cons_cons, List.append_assoc, JsonReading.takeEntries_append hbefore,
            entryText]
          simp only [List.append_assoc, List.cons_append]
          have hread : ∀ s, takeValue (fuel + 1) depth (gap ++ (write d ++ ',' :: s))
              = some (d.inOrder, ',' :: s) := by
            intro s
            rw [JsonReading.takeValue_append hgap]
            exact hvalue fuel _ (startsIn_cons (by decide) s) (by omega)
          rw [JsonReading.takeEntries_more key (hread _) (skip_cons (by decide) _)]
          exact ih (List.cons_ne_nil _ _)
            (fun entry h => hentries entry (List.mem_cons_of_mem _ h)) (by omega) _

/-- White space and an item do not begin with the closing bracket. -/
theorem skip_joined_ne {α : Type} {write : α → List Char} {closing : Char} {items : List α}
    (hbefore : ∀ c ∈ before, isSpace c = true) (hne : items ≠ [])
    (hwrite : ∀ item ∈ items, ∀ r t, skip (write item ++ r) ≠ closing :: t) (r t : List Char) :
    skip ([','].intercalate (items.map fun item => before ++ write item) ++ r) ≠ closing :: t := by
  obtain ⟨item, rest, rfl⟩ := List.exists_cons_of_ne_nil hne
  have hitem := hwrite item List.mem_cons_self
  cases rest with
  | nil =>
      rw [List.map_singleton, List.intercalate_singleton, List.append_assoc, skip_append hbefore]
      exact hitem _ t
  | cons next rest =>
      rw [joined_cons_cons, List.append_assoc, List.append_assoc, skip_append hbefore]
      exact hitem _ t

theorem length_bracketed {α : Type} (write : α → List Char) (opening closing : Char)
    {items : List α} (hne : items ≠ []) :
    (bracketed opening closing before after write items).length
      = ([','].intercalate (items.map fun item => before ++ write item)).length
        + after.length + 2 := by
  rw [← List.append_nil (bracketed opening closing before after write items),
    bracketed_append_of_ne_nil hne, List.length_cons, List.length_append, List.length_append,
    List.length_singleton]
  omega

theorem takeValue_list (hbefore : ∀ c ∈ before, isSpace c = true)
    (hafter : StartsIn ['\n'] after) (hblank : ∀ c ∈ after, isSpace c = true)
    {items : List Datum} (hitems : ∀ item ∈ items, IsReadBack write depth item)
    (hwrite : ∀ item ∈ items, ∀ r t, skip (write item ++ r) ≠ ']' :: t)
    (hfuel : (bracketed '[' ']' before after write items).length ≤ fuel) (r : List Char) :
    takeValue (fuel + 1) (depth + 1) (bracketed '[' ']' before after write items ++ r)
      = some (.list (itemsInOrder items), r) := by
  by_cases hne : items = []
  · rw [hne]
    rfl
  · rw [length_bracketed write _ _ hne] at hfuel
    rw [bracketed_append_of_ne_nil hne,
      JsonReading.takeValue_bracket (skip_joined_ne hbefore hne hwrite _),
      takeItems_joined hbefore hafter hblank hne hitems (by omega)]
    rfl

theorem takeValue_record (hbefore : ∀ c ∈ before, isSpace c = true)
    (hafter : StartsIn ['\n'] after) (hblank : ∀ c ∈ after, isSpace c = true)
    (hgap : ∀ c ∈ gap, isSpace c = true) {entries : List (String × Datum)}
    (hentries : ∀ entry ∈ entries, IsReadBack write depth entry.2)
    (hfuel : (bracketed '\x7b' '\x7d' before after (entryText gap write) entries).length ≤ fuel)
    (r : List Char) :
    takeValue (fuel + 1) (depth + 1)
        (bracketed '\x7b' '\x7d' before after (entryText gap write) entries ++ r)
      = some (.record (entriesInOrder [] entries), r) := by
  by_cases hne : entries = []
  · rw [hne]
    rfl
  · have hquote : ∀ entry ∈ entries, ∀ r t,
        skip (entryText gap write entry ++ r) ≠ '\x7d' :: t := by
      intro entry _ r t
      rw [entryText, List.append_assoc, JsonReading.quoted_append, skip_cons (by decide)]
      exact fun h => absurd (List.cons.inj h).1 (by decide)
    rw [length_bracketed _ _ _ hne] at hfuel
    rw [bracketed_append_of_ne_nil hne,
      JsonReading.takeValue_brace (skip_joined_ne hbefore hne hquote _),
      takeEntries_joined hbefore hafter hblank hgap hne hentries (by omega)]
    rfl

end Parts

section Writer

variable {line : Nat → List Char} {gap : List Char} {write : Nat → Datum → List Char}

/-- A value does not begin with white space. -/
theorem skip_write (hw : IsWriter line gap write) (level : Nat) {d : Datum} (hd : d.HoldsFinite)
    (r : List Char) : skip (write level d ++ r) = write level d ++ r := by
  obtain ⟨c, t, hhead, hopening⟩ := hw.head level hd
  have hblank : ∀ c ∈ [' ', '\n', '\t', '\r'], isSpace (openingOf c) = true := by
    simp [isSpace, openingOf, Double.isJsonChar, Number.isDigit]
  have hspace : isSpace c = false := by
    rw [Bool.eq_false_iff]
    intro hc
    have hmem : c ∈ [' ', '\n', '\t', '\r'] := by
      simpa [isSpace, or_assoc] using hc
    have hvalue : isSpace d.opening = false := by cases d <;> rfl
    rw [← hopening, hblank c hmem] at hvalue
    cases hvalue
  rw [hhead, List.cons_append, skip_cons hspace]

/-- A value that is not nested too deep is read back. The induction is on what is read back, so the
items and entries are written a level deeper. -/
theorem IsWriter.isReadBack (hw : IsWriter line gap write)
    (hline : ∀ level, ∀ c ∈ line level, isSpace c = true) (hgap : ∀ c ∈ gap, isSpace c = true)
    {depth : Nat} {d : Datum} (hd : Readable depth d) (level : Nat) :
    IsReadBack (write level) depth d := by
  induction hd generalizing level with
  | null =>
      intro fuel r _ _
      rw [hw.null]
      rfl
  | bool value =>
      intro fuel r _ _
      rw [hw.bool]
      cases value <;> rfl
  | int hvalue =>
      intro fuel r hr _
      rw [hw.int]
      exact JsonReading.takeValue_int hvalue fuel _ hr
  | text value =>
      intro fuel r _ _
      rw [hw.text]
      exact JsonReading.takeValue_quoted value fuel _ r
  | list hitems ih =>
      intro fuel r _ hfuel
      rw [hw.list] at hfuel ⊢
      refine takeValue_list (hline _) (hw.blank _) (hline _) (fun item h => ih item h _) ?_ hfuel r
      intro item hitem r t
      rw [skip_write hw _ (hitems item hitem).holdsFinite]
      exact hw.append_ne _ (hitems item hitem).holdsFinite r t
  | record hentries ih =>
      intro fuel r _ hfuel
      rw [hw.record] at hfuel ⊢
      exact takeValue_record (hline _) (hw.blank _) (hline _) hgap (fun entry h => ih entry h _)
        hfuel r

/-- A text that is nothing but a written value is read back. -/
theorem IsWriter.ofJson? (hw : IsWriter line gap write)
    (hline : ∀ level, ∀ c ∈ line level, isSpace c = true) (hgap : ∀ c ∈ gap, isSpace c = true)
    {d : Datum} (hd : Readable 127 d) (level : Nat) :
    Datum.ofJson? (write level d) = some d.inOrder := by
  have hread := hw.isReadBack hline hgap hd level (2 * (write level d).length + 1) []
    (startsIn_nil _) (by omega)
  rw [List.append_nil] at hread
  rw [Datum.ofJson?, hread]
  rfl

end Writer

/-- Data are read back from their compact form. -/
theorem ofJson?_compact {d : Datum} (hd : Readable 127 d) :
    Datum.ofJson? d.compact = some d.inOrder :=
  isWriter_compact.ofJson? (by simp) (by simp) hd 0

/-- Data are read back from their pretty form. -/
theorem ofJson?_pretty {d : Datum} (hd : Readable 127 d) :
    Datum.ofJson? d.pretty = some d.inOrder := by
  refine isWriter_pretty.ofJson? ?_ (by simp [isSpace]) hd 0
  intro level c hc
  rcases List.mem_cons.mp hc with rfl | hc
  · rfl
  · rw [List.eq_of_mem_replicate hc]
    rfl

end Datum

end IndexQuery
