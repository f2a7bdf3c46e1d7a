import IndexQuery.Proofs.Filter.Naming
import IndexQuery.Proofs.Filter.Shape
import IndexQuery.Proofs.Text.Cutting
set_option autoImplicit false

/-! # Filters that are read back

A filter can be spelled in many ways: the word of its operator in any case and with blanks around
it, its values with any mixture of the characters that separate them (`Spelled`). All of them are
read as this filter. For that its field needs a plain name, and its values the shape that the
operator gives them (`IsWellFormed`): what is cut at separators contains none, and what is trimmed
has no blanks at its ends. The filters that are read at all are the well-formed ones
(`spelled_read_back`). -/

namespace IndexQuery

/-! ## Joined values -/

namespace Text

/-- The values stand in the text in order, with one separator between any two of them. -/
inductive Joined (separators : List Char) : List (List Char) → List Char → Prop
  | none : Joined separators [] []
  | one {value : List Char} : Joined separators [value] value
  | more {value next text : List Char} {rest : List (List Char)} {c : Char} : c ∈ separators →
      Joined separators (next :: rest) text →
      Joined separators (value :: next :: rest) (value ++ c :: text)

variable {separators : List Char} {values : List (List Char)} {text : List Char} {p : Char → Bool}

theorem exists_joined {c : Char} (hc : c ∈ separators) (values : List (List Char)) :
    ∃ text, Joined separators values text := by
  induction values with
  | nil => exact ⟨[], .none⟩
  | cons value rest ih =>
      obtain ⟨text, htext⟩ := ih
      cases rest with
      | nil => exact ⟨value, .one⟩
      | cons next rest => exact ⟨value ++ c :: text, .more hc htext⟩

/-- Values without separators are what a joined text is cut into. -/
theorem splitOnP_joined (hp : ∀ c, p c = true ↔ c ∈ separators)
    (h : Joined separators values text) (hne : values ≠ [])
    (hfree : ∀ value ∈ values, ∀ c ∈ value, c ∉ separators) : text.splitOnP p = values := by
  have hkept : ∀ value ∈ values, ∀ c ∈ value, p c = false := by
    intro value hvalue c hc
    rw [← Bool.not_eq_true, hp]
    exact hfree value hvalue c hc
  clear hfree
  induction h with
  | none => exact absurd rfl hne
  | one => exact List.splitOnP_eq_singleton (hkept _ List.mem_cons_self)
  | @more value next text rest c hc h ih =>
      rw [List.splitOnP_append_cons value text ((hp c).mpr hc),
        List.splitOnP_eq_singleton (hkept value List.mem_cons_self),
        ih (List.cons_ne_nil _ _) fun v hv => hkept v (List.mem_cons_of_mem value hv)]
      rfl

end Text

/-! ## Words for operators -/

namespace FilterOperator

/-- A text that names an operator: a word for it in any case, with blanks around it. -/
inductive Says (op : FilterOperator) : List Char → Prop
  | intro {before letters after : List Char} {name : String} :
      Text.isBlankText before = true → Text.isBlankText after = true →
      (name, op) ∈ vocabulary → Text.sameLatin letters name.toList = true →
      Says op (before ++ (letters ++ after))

variable {op : FilterOperator} {word letters : List Char} {name : String}

theorem exists_name (op : FilterOperator) : ∃ name, (name, op) ∈ vocabulary := by
  cases op <;> simp [vocabulary]

/-- Every word is for one operator. -/
theorem lookup_name (h : (name, op) ∈ vocabulary) : vocabulary.lookup name = some op := by
  have hall : ∀ entry ∈ vocabulary, vocabulary.lookup entry.1 = some entry.2 := by decide
  exact hall _ h

/-- The words for operators are in lower case, and have neither blanks nor colons. -/
theorem name_letters (h : (name, op) ∈ vocabulary) :
    ∀ c ∈ name.toList, c.toLower = c ∧ Text.isBlank c = false ∧ c ≠ ':' := by
  have hall : ∀ entry ∈ vocabulary, entry.1.toList.all
      (fun c => c.toLower = c ∧ Text.isBlank c = false ∧ c ≠ ':') = true := by decide
  exact fun c hc => of_decide_eq_true (List.all_eq_true.mp (hall _ h) c hc)

theorem lowerLatin_name (h : (name, op) ∈ vocabulary) :
    Text.lowerLatin name.toList = name.toList :=
  (List.map_congr_left fun c hc => (name_letters h c hc).1).trans (List.map_id _)

/-- In no case have the words for operators blanks or colons. -/
theorem of_mem_letters (h : (name, op) ∈ vocabulary)
    (hletters : Text.sameLatin letters name.toList = true) :
    ∀ c ∈ letters, Text.isBlank c = false ∧ c ≠ ':' := by
  intro c hc
  have hlower : c.toLower ∈ name.toList := by
    rw [← lowerLatin_name h, ← eq_of_beq hletters]
    exact List.mem_map_of_mem hc
  obtain ⟨-, hblank, hcolon⟩ := name_letters h _ hlower
  constructor
  · rw [← Bool.not_eq_true]
    intro hc
    rw [Text.toLower_of_isBlank hc, hc] at hblank
    cases hblank
  · rintro rfl
    exact hcolon rfl

/-- The texts that name an operator are the ones that are read as it. -/
theorem ofText_eq_ok_iff : ofText word = .ok op ↔ Says op word := by
  constructor
  · intro h
    simp only [ofText] at h
    split at h
    · next found hfound =>
        cases h
        obtain ⟨before, after, hvocabulary, -⟩ := List.lookup_eq_some_iff.mp hfound
        have hname : (String.ofList (Text.lowerLatin (Text.trim word)), op) ∈ vocabulary := by
          rw [hvocabulary]
          simp
        obtain ⟨before, after, hbefore, hafter, hword⟩ := Text.exists_padding word
        rw [hword]
        refine .intro hbefore hafter hname (beq_iff_eq.mpr ?_)
        rw [lowerLatin_name hname, String.toList_ofList]
    · cases h
  · rintro ⟨hbefore, hafter, hname, hletters⟩
    have hblank := fun c hc => (of_mem_letters hname hletters c hc).1
    have htrimmed : Text.IsTrimmed _ :=
      ⟨fun c hc => hblank c (List.mem_of_mem_head? hc),
        fun c hc => hblank c (List.mem_of_mem_getLast? hc)⟩
    have hword := eq_of_beq hletters
    rw [lowerLatin_name hname] at hword
    simp only [ofText, Text.trim_padded hbefore hafter htrimmed, hword, String.ofList_toList,
      lookup_name hname]

theorem Says.colon_not_mem (h : Says op word) : ':' ∉ word := by
  obtain ⟨hbefore, hafter, hname, hletters⟩ := h
  intro hmem
  rcases List.mem_append.mp hmem with hmem | hmem
  · exact absurd (List.all_eq_true.mp hbefore _ hmem) (by decide)
  · rcases List.mem_append.mp hmem with hmem | hmem
    · exact (of_mem_letters hname hletters _ hmem).2 rfl
    · exact absurd (List.all_eq_true.mp hafter _ hmem) (by decide)

/-! ## Values of an operator -/

/-- The characters that separate the values of an operator. -/
def separators : FilterOperator → List Char
  | isIn | notIn | all => ['|', ',']
  | range | near => [',']
  | _ => []

/-- The values that an operator takes: the members of a list, the pieces of a range or a circle,
none for absent values, a text as it is, or a single trimmed text. -/
def Takes (op : FilterOperator) (values : List (List Char)) : Prop :=
  match op with
  | isIn | notIn | all =>
    ∀ value ∈ values, value ≠ [] ∧ Text.IsTrimmed value ∧ ∀ c ∈ value, c ∉ ['|', ',']
  | range | near => values ≠ [] ∧ ∀ value ∈ values, Text.IsTrimmed value ∧ ∀ c ∈ value, c ∉ [',']
  | missing => values = []
  | starts | ends | contains | fuzzy => ∃ value, values = [value]
  | eq | ne | gt | gte | lt | lte | bool => ∃ value, values = [value] ∧ Text.IsTrimmed value

end FilterOperator

namespace Filter

open FilterOperator

variable {op : FilterOperator} {values : List (List Char)} {value text : List Char}
  {p : Char → Bool} {filter : Filter}

/-- What is joined of trimmed values without separators are the trimmed pieces again. -/
theorem trimmedPieces_joined {separators : List Char} (hp : ∀ c, p c = true ↔ c ∈ separators)
    (h : Text.Joined separators values text) (hne : values ≠ [])
    (hvalues : ∀ value ∈ values, Text.IsTrimmed value ∧ ∀ c ∈ value, c ∉ separators) :
    trimmedPieces p text = values := by
  rw [trimmedPieces, Text.splitOnP_joined hp h hne fun value hv => (hvalues value hv).2]
  exact (List.map_congr_left fun value hv => Text.trim_eq_self_iff.mpr (hvalues value hv).1).trans
    (List.map_id _)

theorem of_mem_trimmedPieces {piece : List Char} (h : piece ∈ trimmedPieces p text) :
    Text.IsTrimmed piece ∧ ∀ c ∈ piece, p c = false := by
  obtain ⟨raw, hraw, rfl⟩ := List.mem_map.mp h
  exact ⟨Text.isTrimmed_trim raw,
    fun c hc => Text.not_mem_splitOnP _ raw hraw c (Text.mem_of_mem_trim hc)⟩

/-- The pieces of a joined list, the empty ones dropped. -/
theorem members_joined (htakes : ∀ value ∈ values, value ≠ [] ∧ Text.IsTrimmed value ∧
      ∀ c ∈ value, c ∉ ['|', ',']) (h : Text.Joined ['|', ','] values text) :
    (trimmedPieces (fun c => c == '|' || c == ',') text).filter (!·.isEmpty) = values := by
  cases values with
  | nil =>
      cases h
      rfl
  | cons first rest =>
      have hpieces := trimmedPieces_joined (p := fun c => c == '|' || c == ',') (by simp) h
        (List.cons_ne_nil _ _) fun value hv => (htakes value hv).2
      rw [hpieces, List.filter_eq_self]
      intro value hv
      simpa using (htakes value hv).1

/-- The pieces of a joined range or circle. -/
theorem parts_joined (hne : values ≠ []) (htakes : ∀ value ∈ values, Text.IsTrimmed value ∧
      ∀ c ∈ value, c ∉ [',']) (h : Text.Joined [','] values text) :
    trimmedPieces (· == ',') text = values :=
  trimmedPieces_joined (by simp) h hne htakes

theorem joined_singleton {separators : List Char} :
    Text.Joined separators [value] text ↔ text = value := by
  constructor
  · rintro ⟨⟩
    rfl
  · rintro rfl
    exact .one

/-- Values that an operator takes are read back, with whatever separators they are joined. -/
theorem valuesOf_joined (htakes : op.Takes values)
    (h : Text.Joined op.separators values text) : valuesOf op text = values := by
  cases op with
  | isIn | notIn | all => exact members_joined htakes h
  | range | near => exact parts_joined htakes.1 htakes.2 h
  | missing => exact htakes.symm
  | starts | ends | contains | fuzzy =>
      obtain ⟨value, rfl⟩ := htakes
      rw [joined_singleton.mp h]
      rfl
  | eq | ne | gt | gte | lt | lte | bool =>
      obtain ⟨value, rfl, htrimmed⟩ := htakes
      rw [joined_singleton.mp h]
      exact congrArg (fun value => [value]) (Text.trim_eq_self_iff.mpr htrimmed)

/-- An operator takes the values that it reads. -/
theorem takes_valuesOf (op : FilterOperator) (text : List Char) :
    op.Takes (valuesOf op text) := by
  cases op with
  | isIn | notIn | all =>
      intro value hvalue
      obtain ⟨hpiece, hne⟩ := List.mem_filter.mp hvalue
      obtain ⟨htrimmed, hfree⟩ := of_mem_trimmedPieces hpiece
      exact ⟨by simpa using hne, htrimmed, fun c hc => by simpa using hfree c hc⟩
  | range | near =>
      refine ⟨?_, fun value hvalue => ?_⟩
      · exact mt List.map_eq_nil_iff.mp (List.splitOnP_ne_nil _ text)
      · obtain ⟨htrimmed, hfree⟩ := of_mem_trimmedPieces hvalue
        exact ⟨htrimmed, fun c hc => by simpa using hfree c hc⟩
  | missing => rfl
  | starts | ends | contains | fuzzy => exact ⟨text, rfl⟩
  | eq | ne | gt | gte | lt | lte | bool => exact ⟨_, rfl, Text.isTrimmed_trim text⟩

/-! ## Spelled filters -/

/-- A filter whose field has a plain name that is not empty, with values that its operator takes. -/
structure IsWellFormed (filter : Filter) : Prop where
  name_ne_nil : filter.field.toList ≠ []
  colon_not_mem : ':' ∉ filter.field.toList
  name_trimmed : Text.IsTrimmed filter.field.toList
  takes : filter.operator.Takes filter.rawValues

/-- A text that spells a filter: the field, a word for the operator and the joined values with
colons between them. A filter for absent values ends with its word. -/
inductive Spelled (filter : Filter) : List Char → Prop
  | valued {word text : List Char} : filter.operator ≠ .missing → Says filter.operator word →
      Text.Joined filter.operator.separators filter.rawValues text →
      Spelled filter (filter.field.toList ++ ':' :: (word ++ ':' :: text))
  | bare {word : List Char} : filter.operator = .missing → Says .missing word →
      Spelled filter (filter.field.toList ++ ':' :: word)

theorem ofWritten_eq_self (h : filter.IsWellFormed)
    (hvalues : valuesOf filter.operator text = filter.rawValues) :
    ofWritten filter.field.toList filter.operator text = filter := by
  have hname : Text.trim filter.field.toList = filter.field.toList :=
    Text.trim_eq_self_iff.mpr h.name_trimmed
  have hstrings : filter.rawValues.map String.ofList = filter.values := by
    simp [rawValues, Function.comp_def]
  rw [ofWritten, hname, hvalues, hstrings, String.ofList_toList]

/-- However a well-formed filter is spelled, it has its field, its operator and its values in it. -/
theorem written_of_spelled (h : filter.IsWellFormed) (hspelled : Spelled filter text) :
    ∃ value, Written (String.ofList text) filter.field.toList filter.operator value ∧
      valuesOf filter.operator value = filter.rawValues := by
  cases hspelled with
  | @valued word value _ hword hjoined =>
      exact ⟨value, .valued String.toList_ofList h.colon_not_mem hword.colon_not_mem
        (FilterOperator.ofText_eq_ok_iff.mpr hword), valuesOf_joined h.takes hjoined⟩
  | @bare word hop hword =>
      refine ⟨[], ?_, ?_⟩
      · rw [hop]
        exact .bare String.toList_ofList h.colon_not_mem hword.colon_not_mem
          (FilterOperator.ofText_eq_ok_iff.mpr hword)
      · have htakes := h.takes
        rw [hop] at htakes ⊢
        exact htakes.symm

theorem isWellFormed_of_ofText {raw : String} (h : ofText raw = .ok filter) :
    filter.IsWellFormed := by
  obtain ⟨hcolon, htrimmed⟩ := hasPlainName_of_ofText h
  obtain ⟨field, op, value, -, hvisible, rfl⟩ := ofText_eq_ok_iff.mp h
  refine ⟨?_, hcolon, Text.trim_eq_self_iff.mp htrimmed, ?_⟩
  · rw [← Text.isEmpty_trim] at hvisible
    show (String.ofList (Text.trim field)).toList ≠ []
    rw [String.toList_ofList]
    simpa using hvisible
  · rw [rawValues_ofWritten]
    exact takes_valuesOf op value

theorem exists_joined_of_takes (htakes : op.Takes values) :
    ∃ text, Text.Joined op.separators values text := by
  cases op with
  | isIn | notIn | all | range | near =>
      exact Text.exists_joined (c := ',') (by simp [separators]) values
  | missing =>
      cases htakes
      exact ⟨[], .none⟩
  | starts | ends | contains | fuzzy =>
      obtain ⟨value, rfl⟩ := htakes
      exact ⟨value, .one⟩
  | eq | ne | gt | gte | lt | lte | bool =>
      obtain ⟨value, rfl, -⟩ := htakes
      exact ⟨value, .one⟩

/-- Every well-formed filter can be spelled. -/
theorem exists_spelled (h : filter.IsWellFormed) : ∃ text, Spelled filter text := by
  obtain ⟨name, hname⟩ := exists_name filter.operator
  have hword : Says filter.operator ([] ++ (name.toList ++ [])) :=
    .intro rfl rfl hname (beq_self_eq_true _)
  obtain ⟨text, htext⟩ := exists_joined_of_takes h.takes
  by_cases hop : filter.operator = .missing
  · rw [hop] at hword
    exact ⟨_, .bare hop hword⟩
  · exact ⟨_, .valued hop hword htext⟩

theorem ofText_of_spelled (h : filter.IsWellFormed) (hspelled : Spelled filter text) :
    ofText (String.ofList text) = .ok filter := by
  obtain ⟨value, hwritten, hvalues⟩ := written_of_spelled h hspelled
  have hvisible : Text.isBlankText filter.field.toList = false := by
    rw [← Text.isEmpty_trim, Text.trim_eq_self_iff.mpr h.name_trimmed]
    simpa using h.name_ne_nil
  exact ofText_eq_ok_iff.mpr
    ⟨_, _, value, hwritten, hvisible, (ofWritten_eq_self h hvalues).symm⟩

/-- Filters and their spellings. A well-formed filter is read back from every text that spells it,
whatever the case of its operator, the blanks around it and the separators of its values, and there
is such a text. No other filter is read from any text. -/
theorem spelled_read_back :
    (∀ (filter : Filter) (text : List Char), filter.IsWellFormed → Spelled filter text →
      ofText (String.ofList text) = .ok filter) ∧
    (∀ filter : Filter, filter.IsWellFormed → ∃ text, Spelled filter text) ∧
    ∀ (filter : Filter) (raw : String), ofText raw = .ok filter → filter.IsWellFormed :=
  ⟨fun _ _ => ofText_of_spelled, fun _ => exists_spelled, fun _ _ => isWellFormed_of_ofText⟩

/-- A list of tags with both separators, a tag with a colon among them, and a filter without a
value. -/
theorem spelled_read_back_tags :
    let tags : Filter := ⟨"tag set", .notIn, ["x", "y:z", "w"]⟩
    let absent : Filter := ⟨"age", .missing, []⟩
    tags.IsWellFormed ∧ Spelled tags "tag set: nIN :x|y:z,w".toList ∧
      ofText "tag set: nIN :x|y:z,w" = .ok tags ∧
      absent.IsWellFormed ∧ Spelled absent "age:Missing".toList ∧
      ofText "age:Missing" = .ok absent ∧ ∃ text, Spelled absent text := by
  intro tags absent
  have htags : tags.IsWellFormed := by
    refine ⟨by decide, by decide, by decide, ?_⟩
    have hvalues : tags.rawValues.all (fun value => value ≠ [] ∧ Text.IsTrimmed value ∧
        value.all (· ∉ ['|', ',']) = true) = true := by decide
    intro value hvalue
    obtain ⟨hne, htrimmed, hplain⟩ := of_decide_eq_true (List.all_eq_true.mp hvalues value hvalue)
    exact ⟨hne, htrimmed, fun c hc => of_decide_eq_true (List.all_eq_true.mp hplain c hc)⟩
  have habsent : absent.IsWellFormed := ⟨by decide, by decide, by decide, rfl⟩
  have hword : Says tags.operator " nIN ".toList :=
    @Says.intro .notIn [' '] ['n', 'I', 'N'] [' '] "nin" rfl rfl (by decide) (by decide)
  have hmissing : Says .missing "Missing".toList :=
    @Says.intro .missing [] "Missing".toList [] "missing" rfl rfl (by decide) (by decide)
  have hjoined : Text.Joined tags.operator.separators tags.rawValues "x|y:z,w".toList :=
    @Text.Joined.more _ ['x'] ['y', ':', 'z'] _ _ _ (by decide) (.more (by decide) .one)
  have hlist : Spelled tags "tag set: nIN :x|y:z,w".toList := by
    have htext : "tag set: nIN :x|y:z,w".toList =
        tags.field.toList ++ ':' :: (" nIN ".toList ++ ':' :: "x|y:z,w".toList) := by decide
    rw [htext]
    exact .valued (by decide) hword hjoined
  have hbare : Spelled absent "age:Missing".toList := by
    have htext : "age:Missing".toList = absent.field.toList ++ ':' :: "Missing".toList := by decide
    rw [htext]
    exact .bare rfl hmissing
  exact ⟨htags, hlist, spelled_read_back.1 tags _ htags hlist, habsent, hbare,
    spelled_read_back.1 absent _ habsent hbare, spelled_read_back.2.1 absent habsent⟩

end Filter

end IndexQuery
