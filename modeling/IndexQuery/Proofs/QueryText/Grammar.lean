import IndexQuery.Proofs.Number.Written
import IndexQuery.Proofs.QueryText.Separation
import IndexQuery.QueryText.Rendering
set_option autoImplicit false

/-! # The grammar of queries

The query language, as far as queries use it: a query is a list of conjuncts, a conjunct is an atom
or a group of alternative atoms, negated or not, and an atom compares a field with a phrase, with
marked words, with a set of tags or with a bracket of items, or asks for the absence of a value. In
every place the characters that could end a thing are escaped inside it or do not occur in it, so a
text is the text of one query only (`conjunction_unambiguous`, `neighbours_inj`). -/

namespace IndexQuery.QueryText

/-! ## Comparands -/

/-- What a field is compared with, as it is written. -/
inductive Comparand where
  | phrase (s : List Char)
  | word (w : Marked)
  | words (ws : List Marked)
  | tags (ts : List Marked)
  | bracket (items : List (List Char))

/-- The marks of words: a wildcard, and the bracket of a word up to one edit. -/
def wordMarks : List Char := ['*', '%']

/-- The mark of tags. -/
def tagMarks : List Char := ['*']

namespace Comparand

/-- Several words are put in parentheses. -/
def write : Comparand → List Char
  | phrase s => QueryText.phrase s
  | word w => w.write textSpecial
  | words ws => '(' :: [' '].intercalate (ws.map (Marked.write textSpecial)) ++ [')']
  | tags ts => tagSet (ts.map (Marked.write tagSpecial))
  | bracket items => '[' :: [' '].intercalate (items.map fun item => item) ++ [']']

/-- Whether the parts can be told apart. -/
def IsValid : Comparand → Prop
  | phrase _ => True
  | word w => w.IsValid textSpecial wordMarks [' ', ')', '|'] ∧ (w.word = [] → w.lead ≠ none)
  | words ws => ws ≠ [] ∧ ∀ w ∈ ws, w.IsValid textSpecial wordMarks [' ', ')', '|']
  | tags ts => ts ≠ [] ∧ ∀ t ∈ ts, t.IsValid tagSpecial tagMarks ['|', '\x7d']
  | bracket items => items ≠ [] ∧ ∀ item ∈ items, ∀ c ∈ item, c ∉ [' ', ']']

/-- The kind of a comparand; its first character tells. -/
def kind : Comparand → Nat
  | phrase _ => 0
  | tags _ => 1
  | bracket _ => 2
  | word _ => 3
  | words _ => 4

end Comparand

/-- The kind of the comparand that begins with a character. -/
def kindOf (c : Char) : Nat :=
  if c = '"' then 0 else if c = '\x7b' then 1 else if c = '[' then 2 else if c = '(' then 4 else 3

theorem unambiguous_words :
    Unambiguous (Marked.IsValid textSpecial wordMarks [' ', ')', '|']) [' ', ')', '|']
      (Marked.write textSpecial) :=
  unambiguous_marked (by simp [wordMarks, textSpecial]) (by decide) (by simp [wordMarks])

theorem unambiguous_tags :
    Unambiguous (Marked.IsValid tagSpecial tagMarks ['|', '\x7d']) ['|', '\x7d']
      (Marked.write tagSpecial) :=
  unambiguous_marked (by simp [tagMarks, tagSpecial]) (by decide) (by simp [tagMarks])

/-- A marked word begins with a mark, a backslash, or a character without meaning. -/
theorem kindOf_word {w : Marked} (hw : w.IsValid textSpecial wordMarks [' ', ')', '|'])
    (hne : w.word = [] → w.lead ≠ none) :
    ∃ c s, w.write textSpecial = c :: s ∧ kindOf c = 3 := by
  have hplain : ∀ c, c = '\\' ∨ c ∉ textSpecial → kindOf c = 3 := by
    intro c hc
    rcases hc with rfl | hc
    · decide
    · unfold kindOf
      rw [if_neg, if_neg, if_neg, if_neg] <;> (rintro rfl; exact hc (by decide))
  cases hlead : w.lead with
  | some c =>
      have hmarks : ∀ c ∈ wordMarks, kindOf c = 3 := by simp [wordMarks, kindOf]
      exact ⟨c, _, by rw [Marked.write, hlead]; rfl, hmarks c (hw.lead c hlead)⟩
  | none =>
      cases hword : w.word with
      | nil => exact absurd hlead (hne hword)
      | cons d t =>
          obtain ⟨c, s, hhead, hc⟩ := escape_cons_head (hw.word d (hword ▸ List.mem_cons_self)) t
          refine ⟨c, s ++ w.trail.toList, ?_, hplain c (hc.imp_right And.left)⟩
          rw [Marked.write, hlead, hword, hhead]
          rfl

theorem kindOf_comparand {v : Comparand} (hv : v.IsValid) :
    ∃ c s, v.write = c :: s ∧ kindOf c = v.kind := by
  cases v with
  | word w => exact kindOf_word hv.1 hv.2
  | _ => exact ⟨_, _, rfl, rfl⟩

/-- Comparands are told apart from a blank, a closing parenthesis or a bar behind them. -/
theorem unambiguous_comparand :
    Unambiguous Comparand.IsValid [' ', ')', '|'] Comparand.write := by
  intro a b r r' ha hb hr hr' heq
  -- the first characters are the same, so only comparands of one kind are compared
  have hkind : a.kind = b.kind := by
    obtain ⟨c, s, hc, hac⟩ := kindOf_comparand ha
    obtain ⟨d, t, hd, hbd⟩ := kindOf_comparand hb
    rw [hc, hd] at heq
    rw [← hac, ← hbd, (List.cons.inj heq).1]
  have hphrase : Unambiguous (fun _ => True) [' ', ')', '|'] phrase := by
    have hany : ∀ (s : List Char), ∀ c ∈ s, Escapable phraseSpecial ['"'] c :=
      fun _ _ _ => escapable_of_stops (by decide) fun hquote =>
        List.mem_singleton.mp hquote ▸ by decide
    intro s t r r' _ _ hr hr' heq
    exact (unambiguous_escape (by decide)).enclosed '"' _ s t r r' (hany s) (hany t) hr hr' heq
  have htags := (unambiguous_tags.joined (by decide)).enclosed '\x7b' [' ', ')', '|']
  have hitems := ((unambiguous_run [' ', ']']).joined (by decide)).enclosed '[' [' ', ')', '|']
  have hwords := ((unambiguous_words.joined (by decide)).anti [')'] (by simp)).enclosed
    '(' [' ', ')', '|']
  match a, b, hkind with
  | .phrase s, .phrase t, _ =>
      obtain ⟨rfl, hrest⟩ := hphrase s t r r' trivial trivial hr hr' heq
      exact ⟨rfl, hrest⟩
  | .tags ts, .tags us, _ =>
      obtain ⟨rfl, hrest⟩ := htags ts us r r' ha hb hr hr' heq
      exact ⟨rfl, hrest⟩
  | .bracket xs, .bracket ys, _ =>
      obtain ⟨rfl, hrest⟩ := hitems xs ys r r' ha hb hr hr' heq
      exact ⟨rfl, hrest⟩
  | .word w, .word w', _ =>
      obtain ⟨rfl, hrest⟩ := unambiguous_words w w' r r' ha.1 hb.1 hr hr' heq
      exact ⟨rfl, hrest⟩
  | .words ws, .words ws', _ =>
      obtain ⟨rfl, hrest⟩ := hwords ws ws' r r' ha hb hr hr' heq
      exact ⟨rfl, hrest⟩

/-! ## Atoms -/

/-- A comparison of a field, or the question whether its value is missing. -/
inductive Atom where
  | field (key : List Char) (comparand : Comparand)
  | missing (key : List Char)

namespace Atom

def write : Atom → List Char
  | field key comparand => fieldRef key ++ ':' :: comparand.write
  | missing key => "ismissing(".toList ++ fieldRef key ++ [')']

theorem write_field (key : List Char) (comparand : Comparand) :
    (field key comparand).write
      = '@' :: (escape keySpecial.contains key ++ ':' :: comparand.write) :=
  rfl

theorem write_missing (key : List Char) : (missing key).write
    = "ismissing(".toList ++ '@' :: (escape keySpecial.contains key ++ [')']) := by
  show "ismissing(".toList ++ fieldRef key ++ [')'] = _
  rw [List.append_assoc]
  rfl

/-- A key that ends at a colon, a closing parenthesis or a blank. -/
def IsKey (key : List Char) : Prop := ∀ c ∈ key, Escapable keySpecial [':', ')', ' '] c

def IsValid : Atom → Prop
  | field key comparand => IsKey key ∧ comparand.IsValid
  | missing key => IsKey key

end Atom

theorem unambiguous_key :
    Unambiguous Atom.IsKey [':', ')', ' '] (escape keySpecial.contains) :=
  unambiguous_escape (by decide)

theorem missing_head (key : List Char) : ∃ s, (Atom.missing key).write = 'i' :: s := by
  have hword : "ismissing(".toList = ['i', 's', 'm', 'i', 's', 's', 'i', 'n', 'g', '('] := rfl
  rw [Atom.write_missing, hword]
  exact ⟨_, rfl⟩

/-- An atom begins with an at sign or a letter. -/
theorem atom_head (a : Atom) : BeginsIn ['@', 'i'] a.write := by
  cases a with
  | field key comparand => exact ⟨_, _, rfl, by decide⟩
  | missing key =>
      obtain ⟨s, hhead⟩ := missing_head key
      exact ⟨_, s, hhead, by decide⟩

theorem unambiguous_atom : Unambiguous Atom.IsValid [' ', ')', '|'] Atom.write := by
  have hmixed : ∀ (key key' : List Char) (comparand : Comparand) (r r' : List Char),
      (Atom.field key comparand).write ++ r ≠ (Atom.missing key').write ++ r' := by
    intro key key' comparand r r' heq
    obtain ⟨s, hhead⟩ := missing_head key'
    rw [hhead] at heq
    exact absurd (List.cons.inj heq).1 (by decide)
  intro a b r r' ha hb hr hr' heq
  cases a with
  | field key comparand =>
      cases b with
      | field key' comparand' =>
          simp only [Atom.write_field, List.append_assoc, List.cons_append] at heq
          obtain ⟨rfl, hbehind⟩ := unambiguous_key key key' _ _ ha.1 hb.1
            (startsIn_cons (by decide) _) (startsIn_cons (by decide) _) (List.cons.inj heq).2
          obtain ⟨rfl, hrest⟩ := unambiguous_comparand comparand comparand' r r' ha.2 hb.2 hr hr'
            (List.cons.inj hbehind).2
          exact ⟨rfl, hrest⟩
      | missing key' => exact absurd heq (hmixed _ _ _ _ _)
  | missing key =>
      cases b with
      | field key' comparand' => exact absurd heq.symm (hmixed _ _ _ _ _)
      | missing key' =>
          simp only [Atom.write_missing, List.append_assoc, List.cons_append] at heq
          have hkey := (List.cons.inj (List.append_cancel_left heq)).2
          obtain ⟨rfl, hbehind⟩ := unambiguous_key key key' _ _ ha hb
            (startsIn_cons (by decide) _) (startsIn_cons (by decide) _) hkey
          exact ⟨rfl, (List.cons.inj hbehind).2⟩

/-! ## Conjuncts -/

/-- Alternative atoms, negated or not. -/
structure Conjunct where
  /-- whether the documents are those that meet none of the alternatives -/
  negated : Bool
  /-- the alternatives -/
  atoms : List Atom

namespace Conjunct

/-- A single alternative stands alone, several form a group. -/
def writeAtoms : List Atom → List Char
  | [a] => a.write
  | atoms => '(' :: ['|'].intercalate (atoms.map Atom.write) ++ [')']

def write (c : Conjunct) : List Char := (if c.negated then ['-'] else []) ++ writeAtoms c.atoms

def IsValid (c : Conjunct) : Prop := c.atoms ≠ [] ∧ ∀ a ∈ c.atoms, a.IsValid

/-- What a conjunct begins with behind its sign: one atom alone does not begin like a group. -/
theorem head_writeAtoms (atoms : List Atom) : BeginsIn ['@', 'i', '('] (writeAtoms atoms) := by
  match atoms with
  | [] => exact ⟨_, _, rfl, by decide⟩
  | [a] =>
      obtain ⟨c, s, hhead, hc⟩ := atom_head a
      exact ⟨c, s, hhead, List.mem_append_left ['('] hc⟩
  | _ :: _ :: _ => exact ⟨_, _, rfl, by decide⟩

/-- A conjunct begins with a minus sign or like its alternatives. -/
theorem head_write (c : Conjunct) : BeginsIn ['-', '@', 'i', '('] c.write := by
  obtain ⟨d, s, hhead, hd⟩ := head_writeAtoms c.atoms
  cases hnegated : c.negated with
  | true => exact ⟨_, _, by rw [write, hnegated]; rfl, by decide⟩
  | false => exact ⟨d, s, by rw [write, hnegated, hhead]; rfl, List.mem_cons_of_mem _ hd⟩

end Conjunct

theorem unambiguous_atoms :
    Unambiguous (fun atoms => atoms ≠ [] ∧ ∀ a ∈ atoms, Atom.IsValid a) [' ', ')']
      Conjunct.writeAtoms := by
  have hgroup := ((unambiguous_atom.anti ['|', ')'] (by simp)).joined (by decide)).enclosed
    '(' [' ', ')']
  have hmixed : ∀ (a : Atom) (bs : List Atom) (r r' : List Char),
      a.write ++ r ≠ '(' :: ['|'].intercalate (bs.map Atom.write) ++ [')'] ++ r' :=
    fun a _ r _ => (atom_head a).append_ne (by decide) r _
  intro as bs r r' ha hb hr hr' heq
  match as, bs, ha, hb with
  | [], _, ha, _ => exact absurd rfl ha.1
  | _, [], _, hb => exact absurd rfl hb.1
  | [a], [b], ha, hb =>
      obtain ⟨rfl, hrest⟩ := unambiguous_atom a b r r' (ha.2 a List.mem_cons_self)
        (hb.2 b List.mem_cons_self) (hr.mono (by simp)) (hr'.mono (by simp)) heq
      exact ⟨rfl, hrest⟩
  | [a], _ :: _ :: _, _, _ => exact absurd heq (hmixed a _ r r')
  | _ :: _ :: _, [b], _, _ => exact absurd heq.symm (hmixed b _ r' r)
  | _ :: _ :: _, _ :: _ :: _, ha, hb => exact hgroup _ _ r r' ha hb hr hr' heq

theorem unambiguous_conjunct : Unambiguous Conjunct.IsValid [' ', ')'] Conjunct.write := by
  have hminus : ∀ (atoms : List Atom) (r s : List Char),
      Conjunct.writeAtoms atoms ++ r ≠ '-' :: s :=
    fun atoms r s => (Conjunct.head_writeAtoms atoms).append_ne (by decide) r s
  intro a b r r' ha hb hr hr' heq
  obtain ⟨negated, atoms⟩ := a
  obtain ⟨negated', atoms'⟩ := b
  have hsign : negated = negated' ∧ Conjunct.writeAtoms atoms ++ r
      = Conjunct.writeAtoms atoms' ++ r' := by
    cases negated with
    | false =>
        cases negated' with
        | false => exact ⟨rfl, heq⟩
        | true => exact absurd heq (hminus atoms r _)
    | true =>
        cases negated' with
        | false => exact absurd heq.symm (hminus atoms' r' _)
        | true => exact ⟨rfl, (List.cons.inj heq).2⟩
  obtain ⟨rfl, hatoms⟩ := hsign
  obtain ⟨rfl, hrest⟩ := unambiguous_atoms atoms atoms' r r' ha hb hr hr' hatoms
  exact ⟨rfl, hrest⟩

/-! ## Queries -/

/-- Conjuncts side by side; none at all are the query for every document. -/
def conjunction : List Conjunct → List Char
  | [] => ['*']
  | cs => [' '].intercalate (cs.map Conjunct.write)

theorem head_conjunction (c : Conjunct) (cs : List Conjunct) :
    BeginsIn ['-', '@', 'i', '('] (conjunction (c :: cs)) := by
  obtain ⟨d, s, hhead, hd⟩ := c.head_write
  cases cs with
  | nil =>
      refine ⟨d, s, ?_, hd⟩
      rw [conjunction, List.map_singleton, List.intercalate_singleton, hhead]
      simp
  | cons c' cs =>
      refine ⟨d, s ++ ' ' :: conjunction (c' :: cs), ?_, hd⟩
      simp [conjunction, List.intercalate_cons_cons, hhead]

theorem conjunction_unambiguous :
    Unambiguous (fun cs => ∀ c ∈ cs, Conjunct.IsValid c) [')'] conjunction := by
  have hjoined := unambiguous_conjunct.joined (by decide)
  -- the asterisk of no conjuncts is not how one begins
  have hstar : ∀ (c : Conjunct) (cs : List Conjunct) (r r' : List Char),
      conjunction (c :: cs) ++ r ≠ '*' :: r' :=
    fun c cs r r' => (head_conjunction c cs).append_ne (by decide) r r'
  intro cs ds r r' hc hd hr hr' heq
  match cs, ds with
  | [], [] => exact ⟨rfl, (List.cons.inj heq).2⟩
  | [], d :: ds => exact absurd heq.symm (hstar d ds r' r)
  | c :: cs, [] => exact absurd heq (hstar c cs r r')
  | c :: cs, d :: ds =>
      exact hjoined (c :: cs) (d :: ds) r r' ⟨List.cons_ne_nil _ _, hc⟩ ⟨List.cons_ne_nil _ _, hd⟩
        hr hr' heq

/-! ## Searches for neighbours -/

/-- A search for the `k` nearest neighbours among the documents of some conjuncts. -/
def neighbours (config : SearchConfig) (cs : List Conjunct) (k : Nat) (key : List Char) :
    List Char :=
  '(' :: conjunction cs ++ ")=>[KNN ".toList ++ Nat.toDigits 10 k ++ ' ' :: fieldRef key ++
    " $".toList ++ config.vectorParam.toList ++ " AS ".toList ++ config.scoreField.toList ++ [']']

/-- The conjuncts, the number of neighbours and the key can be read off the text. -/
theorem neighbours_inj {config : SearchConfig} {cs cs' : List Conjunct} {k k' : Nat}
    {key key' : List Char} (hcs : ∀ c ∈ cs, Conjunct.IsValid c)
    (hcs' : ∀ c ∈ cs', Conjunct.IsValid c) (hkey : Atom.IsKey key) (hkey' : Atom.IsKey key')
    (heq : neighbours config cs k key = neighbours config cs' k' key') :
    cs = cs' ∧ k = k' ∧ key = key' := by
  have hclosing : ")=>[KNN ".toList = ')' :: ['=', '>', '[', 'K', 'N', 'N', ' '] := rfl
  have hdollar : " $".toList = [' ', '$'] := rfl
  simp only [neighbours, fieldRef, hclosing, hdollar, List.append_assoc, List.cons_append,
    List.nil_append] at heq
  obtain ⟨hconjuncts, hbehind⟩ := conjunction_unambiguous cs cs' _ _ hcs hcs'
    (startsIn_cons (by decide) _) (startsIn_cons (by decide) _) (List.cons.inj heq).2
  simp only [List.cons.injEq, true_and] at hbehind
  have hdigits : ∀ n, ∀ c ∈ Nat.toDigits 10 n, c ∉ [' '] := by
    intro n c hc hblank
    have hdigit := Number.isDigit_of_mem_toDigits hc
    rw [List.mem_singleton.mp hblank] at hdigit
    exact absurd hdigit (by decide)
  obtain ⟨hk, hbehind⟩ := unambiguous_run [' '] _ _ _ _ (hdigits k) (hdigits k')
    (startsIn_cons (by decide) _) (startsIn_cons (by decide) _) hbehind
  simp only [List.cons.injEq, true_and] at hbehind
  obtain ⟨hsame, _⟩ := unambiguous_key key key' _ _ hkey hkey'
    (startsIn_cons (by decide) _) (startsIn_cons (by decide) _) hbehind
  exact ⟨hconjuncts, Number.toDigits_inj hk, hsame⟩

end IndexQuery.QueryText
