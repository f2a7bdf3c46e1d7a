import IndexQuery.QueryText.Escape
set_option autoImplicit false

/-! # Telling texts apart from what follows them

A way of writing is *unambiguous* in front of certain characters when a written text and what comes
behind it determine each other: if two texts with their rests are the same, and both rests are empty
or begin with one of the characters, then the written things are the same and so are the rests. The
ways of putting texts together keep this property: enclosing (`Unambiguous.enclosed`), joining by a
separator (`Unambiguous.joined`), escaping (`unambiguous_escape`), and marking an escaped word at
its ends (`unambiguous_marked`). -/

namespace IndexQuery.QueryText

/-! ## The property -/

/-- A text that is empty or begins with one of the characters. -/
def StartsIn (stop s : List Char) : Prop := ∀ c ∈ s.head?, c ∈ stop

/-- Valid things are told apart from each other and from what follows, as long as that is empty or
begins with one of the characters. -/
def Unambiguous {α : Type} (valid : α → Prop) (stop : List Char) (write : α → List Char) : Prop :=
  ∀ a b r r', valid a → valid b → StartsIn stop r → StartsIn stop r' →
    write a ++ r = write b ++ r' → a = b ∧ r = r'

theorem startsIn_nil (stop : List Char) : StartsIn stop [] := by
  intro c hc
  cases hc

theorem startsIn_cons {stop : List Char} {c : Char} (hc : c ∈ stop) (s : List Char) :
    StartsIn stop (c :: s) := by
  intro d hd
  rw [List.head?_cons, Option.mem_some_iff] at hd
  exact hd ▸ hc

theorem StartsIn.mono {stop stop' s : List Char} (hs : StartsIn stop s)
    (hstop : ∀ c ∈ stop, c ∈ stop') : StartsIn stop' s :=
  fun c hc => hstop c (hs c hc)

theorem StartsIn.head_mem {stop s : List Char} {c : Char} (hs : StartsIn stop (c :: s)) :
    c ∈ stop := hs c rfl

/-- A text that begins with one of the characters. -/
def BeginsIn (first s : List Char) : Prop := ∃ c t, s = c :: t ∧ c ∈ first

/-- A text that begins in one way is not one that begins in another. -/
theorem BeginsIn.append_ne {first s : List Char} (hs : BeginsIn first s) {d : Char}
    (hd : d ∉ first) (r t : List Char) : s ++ r ≠ d :: t := by
  obtain ⟨c, u, rfl, hc⟩ := hs
  intro heq
  exact hd ((List.cons.inj heq).1 ▸ hc)

namespace Unambiguous

variable {α : Type} {valid : α → Prop} {write : α → List Char} {stop : List Char}

/-- Without anything behind it a written text determines what is written. -/
theorem eq (h : Unambiguous valid stop write) {a b : α} (ha : valid a) (hb : valid b)
    (hab : write a = write b) : a = b :=
  (h a b [] [] ha hb (startsIn_nil stop) (startsIn_nil stop) (by rw [hab])).1

theorem anti (h : Unambiguous valid stop write) (stop' : List Char)
    (hstop : ∀ c ∈ stop', c ∈ stop) : Unambiguous valid stop' write :=
  fun a b r r' ha hb hr hr' hab => h a b r r' ha hb (hr.mono hstop) (hr'.mono hstop) hab

/-- A text between two brackets may be followed by anything. -/
theorem enclosed {closing : Char} (h : Unambiguous valid [closing] write) (opening : Char)
    (stop : List Char) : Unambiguous valid stop fun a => opening :: write a ++ [closing] := by
  intro a b r r' ha hb _ _ hab
  have hclosing : ∀ r, StartsIn [closing] (closing :: r) :=
    startsIn_cons (List.mem_singleton.mpr rfl)
  have hinside : write a ++ closing :: r = write b ++ closing :: r' := by
    simpa [List.append_assoc] using hab
  obtain ⟨hsame, hrest⟩ := h a b _ _ ha hb (hclosing r) (hclosing r') hinside
  exact ⟨hsame, (List.cons.inj hrest).2⟩

/-- Texts joined by a separator can be taken apart, if the separator stops them and cannot come
behind the last one. -/
theorem joined {separator : Char} (h : Unambiguous valid (separator :: stop) write)
    (hseparator : separator ∉ stop) :
    Unambiguous (fun xs => xs ≠ [] ∧ ∀ x ∈ xs, valid x) stop
      fun xs => [separator].intercalate (xs.map write) := by
  have hstop : ∀ c ∈ stop, c ∈ separator :: stop := fun c hc => List.mem_cons_of_mem _ hc
  have hfirst : separator ∈ separator :: stop := List.mem_cons_self
  intro xs
  induction xs with
  | nil => intro ys r r' hx; exact absurd rfl hx.1
  | cons x xs ih =>
      intro ys r r' hx hy hr hr' hxy
      obtain ⟨y, ys, rfl⟩ := List.exists_cons_of_ne_nil hy.1
      have hx1 := hx.2 x List.mem_cons_self
      have hy1 := hy.2 y List.mem_cons_self
      cases xs with
      | nil =>
          cases ys with
          | nil =>
              simp only [List.map_cons, List.map_nil, List.intercalate_singleton] at hxy
              obtain ⟨hsame, hrest⟩ := h x y r r' hx1 hy1 (hr.mono hstop) (hr'.mono hstop) hxy
              exact ⟨by rw [hsame], hrest⟩
          | cons y' ys =>
              simp only [List.map_cons, List.map_nil, List.intercalate_singleton,
                List.intercalate_cons_cons, List.append_assoc, List.singleton_append] at hxy
              obtain ⟨_, hrest⟩ := h x y _ _ hx1 hy1 (hr.mono hstop) (startsIn_cons hfirst _) hxy
              -- a separator stands where what follows the last one begins
              exact absurd (StartsIn.head_mem (hrest ▸ hr)) hseparator
      | cons x' xs =>
          cases ys with
          | nil =>
              simp only [List.map_cons, List.map_nil, List.intercalate_singleton,
                List.intercalate_cons_cons, List.append_assoc, List.singleton_append] at hxy
              obtain ⟨_, hrest⟩ := h x y _ _ hx1 hy1 (startsIn_cons hfirst _) (hr'.mono hstop) hxy
              exact absurd (StartsIn.head_mem (hrest ▸ hr')) hseparator
          | cons y' ys =>
              simp only [List.map_cons, List.intercalate_cons_cons, List.append_assoc,
                List.singleton_append] at hxy
              obtain ⟨hsame, hrest⟩ :=
                h x y _ _ hx1 hy1 (startsIn_cons hfirst _) (startsIn_cons hfirst _) hxy
              obtain ⟨hothers, hrest⟩ := ih (y' :: ys) r r'
                ⟨List.cons_ne_nil _ _, fun z hz => hx.2 z (List.mem_cons_of_mem _ hz)⟩
                ⟨List.cons_ne_nil _ _, fun z hz => hy.2 z (List.mem_cons_of_mem _ hz)⟩
                hr hr' (List.cons.inj hrest).2
              exact ⟨by rw [hsame, hothers], hrest⟩

end Unambiguous

/-! ## Escaped texts -/

/-- A character that can be found again in an escaped text: it is escaped, or it is neither the
backslash nor one of the characters that stop the text. -/
def Escapable (special stop : List Char) (c : Char) : Prop :=
  c ∈ special ∨ (c ≠ '\\' ∧ c ∉ stop)

/-- Any character can be found again where the backslash and what stops the text are escaped. -/
theorem escapable_of_stops {special stop : List Char} {c : Char} (hslash : '\\' ∈ special)
    (hstops : c ∈ stop → c ∈ special) : Escapable special stop c := by
  by_cases hc : c ∈ special
  · exact .inl hc
  · refine .inr ⟨?_, fun hstop => hc (hstops hstop)⟩
    rintro rfl
    exact hc hslash

theorem escape_cons_of_mem {special : List Char} {c : Char} (hc : c ∈ special) (s : List Char) :
    escape special.contains (c :: s) = '\\' :: c :: escape special.contains s := by
  simp [escape, hc]

theorem escape_cons_of_not_mem {special : List Char} {c : Char} (hc : c ∉ special)
    (s : List Char) : escape special.contains (c :: s) = c :: escape special.contains s := by
  simp [escape, hc]

/-- How an escaped text begins: with a backslash, or with a character that is not escaped and does
not stop it. -/
theorem escape_cons_head {special stop : List Char} {c : Char} (hc : Escapable special stop c)
    (s : List Char) : ∃ d t, escape special.contains (c :: s) = d :: t ∧
      (d = '\\' ∨ (d ∉ special ∧ d ∉ stop)) := by
  by_cases hmem : c ∈ special
  · exact ⟨_, _, escape_cons_of_mem hmem s, .inl rfl⟩
  · exact ⟨_, _, escape_cons_of_not_mem hmem s, .inr ⟨hmem, (hc.resolve_left hmem).2⟩⟩

/-- An escaped text with characters in it does not begin like what may follow one. -/
theorem escape_cons_ne {special stop : List Char} (hstop : '\\' ∉ stop) {c : Char}
    (hc : Escapable special stop c) (s r : List Char) {r' : List Char} (hr' : StartsIn stop r') :
    escape special.contains (c :: s) ++ r ≠ r' := by
  intro heq
  obtain ⟨d, t, hhead, hd⟩ := escape_cons_head hc s
  rw [hhead, List.cons_append] at heq
  have hmem : d ∈ stop := StartsIn.head_mem (heq ▸ hr')
  rcases hd with rfl | hd
  · exact hstop hmem
  · exact hd.2 hmem

/-- A backslash tells that the character behind it is escaped, because no other character is a
backslash. -/
theorem escape_cons_inj {special stop : List Char} {c d : Char} (hc : Escapable special stop c)
    (hd : Escapable special stop d) {s t r r' : List Char}
    (heq : escape special.contains (c :: s) ++ r = escape special.contains (d :: t) ++ r') :
    c = d ∧ escape special.contains s ++ r = escape special.contains t ++ r' := by
  by_cases hcs : c ∈ special
  · by_cases hds : d ∈ special
    · rw [escape_cons_of_mem hcs, escape_cons_of_mem hds] at heq
      simpa using heq
    · rw [escape_cons_of_mem hcs, escape_cons_of_not_mem hds] at heq
      exact absurd (List.cons.inj heq).1.symm (hd.resolve_left hds).1
  · by_cases hds : d ∈ special
    · rw [escape_cons_of_not_mem hcs, escape_cons_of_mem hds] at heq
      exact absurd (List.cons.inj heq).1 (hc.resolve_left hcs).1
    · rw [escape_cons_of_not_mem hcs, escape_cons_of_not_mem hds] at heq
      exact List.cons.inj heq

theorem unambiguous_escape {special stop : List Char} (hstop : '\\' ∉ stop) :
    Unambiguous (fun s => ∀ c ∈ s, Escapable special stop c) stop (escape special.contains) := by
  intro s
  induction s with
  | nil =>
      intro t r r' _ ht hr hr' heq
      cases t with
      | nil => exact ⟨rfl, heq⟩
      | cons d t => exact absurd heq.symm (escape_cons_ne hstop (ht d List.mem_cons_self) t r' hr)
  | cons c s ih =>
      intro t r r' hs ht hr hr' heq
      have hc := hs c List.mem_cons_self
      cases t with
      | nil => exact absurd heq (escape_cons_ne hstop hc s r hr')
      | cons d t =>
          obtain ⟨rfl, hrest⟩ := escape_cons_inj hc (ht d List.mem_cons_self) heq
          obtain ⟨htexts, hrests⟩ := ih t r r' (fun c hc => hs c (List.mem_cons_of_mem _ hc))
            (fun c hc => ht c (List.mem_cons_of_mem _ hc)) hr hr' hrest
          exact ⟨by rw [htexts], hrests⟩

/-- A text with no character that stops it. -/
theorem unambiguous_run (stop : List Char) :
    Unambiguous (fun s => ∀ c ∈ s, c ∉ stop) stop fun s => s := by
  intro s
  induction s with
  | nil =>
      intro t r r' _ ht hr _ heq
      cases t with
      | nil => exact ⟨rfl, heq⟩
      | cons d t =>
          have heq : r = d :: (t ++ r') := heq
          exact absurd (StartsIn.head_mem (heq ▸ hr)) (ht d List.mem_cons_self)
  | cons c s ih =>
      intro t r r' hs ht hr hr' heq
      cases t with
      | nil =>
          have heq : c :: (s ++ r) = r' := heq
          exact absurd (StartsIn.head_mem (heq ▸ hr')) (hs c List.mem_cons_self)
      | cons d t =>
          obtain ⟨rfl, hrest⟩ := List.cons.inj heq
          obtain ⟨htexts, hrests⟩ := ih t r r' (fun c hc => hs c (List.mem_cons_of_mem _ hc))
            (fun c hc => ht c (List.mem_cons_of_mem _ hc)) hr hr' hrest
          exact ⟨by rw [htexts], hrests⟩

/-! ## Marked words -/

/-- A word with an optional mark at each end. -/
structure Marked where
  /-- the mark in front -/
  lead : Option Char
  /-- the word, not escaped -/
  word : List Char
  /-- the mark behind -/
  trail : Option Char

namespace Marked

/-- The word is escaped, the marks are not. -/
def write (special : List Char) (m : Marked) : List Char :=
  m.lead.toList ++ escape special.contains m.word ++ m.trail.toList

/-- The marks are marks, the word can be found again, and an empty word has no mark behind it. -/
structure IsValid (special marks stop : List Char) (m : Marked) : Prop where
  lead : ∀ c ∈ m.lead, c ∈ marks
  word : ∀ c ∈ m.word, Escapable special (marks ++ stop) c
  trail : ∀ c ∈ m.trail, c ∈ marks
  unmarked : m.word = [] → m.trail = none

end Marked

/-- What stands behind a mark in front, an escaped word or what may follow, begins differently. -/
theorem not_mark_of_rest {special marks stop : List Char} (hmarks : ∀ c ∈ marks, c ∈ special)
    (hslash : '\\' ∉ marks ++ stop) (happart : ∀ c ∈ marks, c ∉ stop) {m : Marked}
    (hm : m.IsValid special marks stop) {r : List Char} (hr : StartsIn stop r) :
    ∀ c ∈ (escape special.contains m.word ++ (m.trail.toList ++ r)).head?, c ∉ marks := by
  intro c hhead hc
  cases hword : m.word with
  | nil =>
      -- an empty word has no mark behind it either
      rw [hword, hm.unmarked hword] at hhead
      exact happart c hc (hr c hhead)
  | cons d t =>
      obtain ⟨e, u, hescaped, he⟩ := escape_cons_head (hm.word d (hword ▸ List.mem_cons_self)) t
      rw [hword, hescaped, List.cons_append, List.head?_cons, Option.mem_some_iff] at hhead
      subst hhead
      rcases he with rfl | he
      · exact hslash (List.mem_append_left _ hc)
      · exact he.1 (hmarks e hc)

/-- Optional marks are told apart from texts that do not begin with a mark. -/
theorem mark_inj {marks : List Char} {m m' : Option Char} (hm : ∀ c ∈ m, c ∈ marks)
    (hm' : ∀ c ∈ m', c ∈ marks) {r r' : List Char} (hr : ∀ c ∈ r.head?, c ∉ marks)
    (hr' : ∀ c ∈ r'.head?, c ∉ marks) (heq : m.toList ++ r = m'.toList ++ r') :
    m = m' ∧ r = r' := by
  cases m with
  | none =>
      cases m' with
      | none => exact ⟨rfl, heq⟩
      | some d =>
          have heq : r = d :: r' := heq
          exact absurd (hm' d rfl) (hr d (heq ▸ rfl))
  | some c =>
      cases m' with
      | none =>
          have heq : c :: r = r' := heq
          exact absurd (hm c rfl) (hr' c (heq ▸ rfl))
      | some d =>
          obtain ⟨rfl, hrest⟩ := List.cons.inj heq
          exact ⟨rfl, hrest⟩

/-- Marked words are told apart when the marks are escaped inside words and do not follow them
otherwise. -/
theorem unambiguous_marked {special marks stop : List Char} (hmarks : ∀ c ∈ marks, c ∈ special)
    (hslash : '\\' ∉ marks ++ stop) (happart : ∀ c ∈ marks, c ∉ stop) :
    Unambiguous (Marked.IsValid special marks stop) stop (Marked.write special) := by
  have hrest : ∀ {r : List Char}, StartsIn stop r → ∀ c ∈ r.head?, c ∉ marks :=
    fun hr c hc hmark => happart c hmark (hr c hc)
  have htail : ∀ (m : Marked) (r : List Char), m.IsValid special marks stop → StartsIn stop r →
      StartsIn (marks ++ stop) (m.trail.toList ++ r) := by
    intro m r hm hr
    cases htrail : m.trail with
    | none => exact hr.mono fun c hc => List.mem_append_right _ hc
    | some c => exact startsIn_cons (List.mem_append_left _ (hm.trail c htrail)) r
  intro a b r r' ha hb hr hr' heq
  simp only [Marked.write, List.append_assoc] at heq
  -- from the front: the mark, the word up to the other mark or what follows, the other mark
  obtain ⟨hlead, heq⟩ := mark_inj ha.lead hb.lead (not_mark_of_rest hmarks hslash happart ha hr)
    (not_mark_of_rest hmarks hslash happart hb hr') heq
  obtain ⟨hword, heq⟩ := unambiguous_escape hslash a.word b.word _ _ ha.word hb.word
    (htail a r ha hr) (htail b r' hb hr') heq
  obtain ⟨htrail, heq⟩ := mark_inj ha.trail hb.trail (hrest hr) (hrest hr') heq
  refine ⟨?_, heq⟩
  cases a
  cases b
  simp only [Marked.mk.injEq]
  exact ⟨hlead, hword, htrail⟩

end IndexQuery.QueryText
