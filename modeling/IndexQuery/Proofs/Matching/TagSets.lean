import IndexQuery.Proofs.Encoding.Fitting
import IndexQuery.Proofs.Filter.Spelling
import IndexQuery.Proofs.Matching.Modes
set_option autoImplicit false

/-! # Tags as sets

A document may hold its tags in one text, with commas between them and blanks around them, or in a
list of texts (`HoldsTags`). They are the same tags either way (`tagsOf_of_holdsTags`), and no
predicate on a tag field tells the documents apart (`accepts_eq_of_tagsOf_eq`). To equal a text is
to have it among the tags, up to letter case, and the conditions on a list of texts ask for some,
all or none of them. A whole number stands for the text of its digits (`of_withDigits`). Together
this is `tag_conditions_are_set_operations`; it excepts the empty text, which asks for nothing. -/

namespace IndexQuery

namespace Matching

/-! ## Stored tags -/

/-- A tag that can stand among others: not empty, without commas, and without blanks at its ends. -/
structure IsTag (t : String) : Prop where
  ne_empty : t ≠ ""
  comma_not_mem : ',' ∉ t.toList
  trimmed : Text.IsTrimmed t.toList

/-- A tag with blanks around it. -/
def Pads (t : String) (piece : List Char) : Prop :=
  ∃ before after, Text.isBlankText before = true ∧ Text.isBlankText after = true ∧
    piece = before ++ (t.toList ++ after)

/-- The stored value holds the tags, in one text or in a list. -/
inductive HoldsTags (ts : List String) : Datum → Prop
  | joined {pieces : List (List Char)} {s : String} (hpieces : List.Forall₂ Pads ts pieces)
      (hs : Text.Joined [','] pieces s.toList) : HoldsTags ts (.text s)
  | listed : HoldsTags ts (.list (ts.map .text))

/-- Tags in lower case. -/
def lowered (ts : List String) : List (List Char) := ts.map fun t => Text.lowercase t.toList

variable {text : List Char} {pieces : List (List Char)} {t : String} {ts : List String}
  {value value' : Datum}

/-- A text is cut into the pieces between its commas. -/
theorem splitTags_joined (h : Text.Joined [','] pieces text) (hne : pieces ≠ [])
    (hcomma : ∀ piece ∈ pieces, ',' ∉ piece) :
    splitTags text = pieces.map fun piece => Text.lowercase (Text.trim piece) := by
  have hcut : text.splitOnP (· == ',') = pieces := by
    refine Text.splitOnP_joined (fun c => by simp) h hne fun piece hpiece c hc => ?_
    rw [List.mem_singleton]
    rintro rfl
    exact hcomma piece hpiece hc
  rw [splitTags, hcut]

/-- A trimmed text without commas is one tag. -/
theorem splitTags_of_comma_not_mem (hcomma : ',' ∉ text) (htrimmed : Text.IsTrimmed text) :
    splitTags text = [Text.lowercase text] := by
  rw [splitTags_joined .one (List.cons_ne_nil _ _) (by simpa using hcomma), List.map_singleton,
    Text.trim_eq_self_iff.mpr htrimmed]

theorem comma_not_mem_of_pads {piece : List Char} (ht : IsTag t) (h : Pads t piece) :
    ',' ∉ piece := by
  obtain ⟨before, after, hbefore, hafter, rfl⟩ := h
  have hblank : ∀ blanks, Text.isBlankText blanks = true → ',' ∉ blanks := by
    intro blanks hblanks hmem
    exact absurd (List.all_eq_true.mp hblanks _ hmem) (by decide)
  simp only [List.mem_append, not_or]
  exact ⟨hblank before hbefore, ht.comma_not_mem, hblank after hafter⟩

theorem trim_of_pads {piece : List Char} (ht : IsTag t) (h : Pads t piece) :
    Text.trim piece = t.toList := by
  obtain ⟨before, after, hbefore, hafter, rfl⟩ := h
  exact Text.trim_padded hbefore hafter ht.trimmed

theorem comma_not_mem_pieces (hts : ∀ t ∈ ts, IsTag t) (h : List.Forall₂ Pads ts pieces) :
    ∀ piece ∈ pieces, ',' ∉ piece := by
  induction h with
  | nil => simp
  | cons hone _ ih =>
      obtain ⟨ht, hrest⟩ := List.forall_mem_cons.mp hts
      exact List.forall_mem_cons.mpr ⟨comma_not_mem_of_pads ht hone, ih hrest⟩

theorem lowered_pieces (hts : ∀ t ∈ ts, IsTag t) (h : List.Forall₂ Pads ts pieces) :
    (pieces.map fun piece => Text.lowercase (Text.trim piece)) = lowered ts := by
  induction h with
  | nil => rfl
  | cons hone _ ih =>
      obtain ⟨ht, hrest⟩ := List.forall_mem_cons.mp hts
      rw [List.map_cons, trim_of_pads ht hone, ih hrest]
      rfl

/-- The tags of a text are the ones it was joined from. -/
theorem splitTags_of_pads (hne : ts ≠ []) (hts : ∀ t ∈ ts, IsTag t)
    (hpieces : List.Forall₂ Pads ts pieces) (h : Text.Joined [','] pieces text) :
    splitTags text = lowered ts := by
  have hpiecesNe : pieces ≠ [] := by
    rintro rfl
    exact hne (List.forall₂_nil_right_iff.mp hpieces)
  rw [splitTags_joined h hpiecesNe (comma_not_mem_pieces hts hpieces), lowered_pieces hts hpieces]

/-- The tags of a list of texts are the texts. -/
theorem tagsOfItems_texts (hts : ∀ t ∈ ts, IsTag t) :
    tagsOfItems (ts.map .text) = lowered ts := by
  induction ts with
  | nil => rfl
  | cons t rest ih =>
      obtain ⟨ht, hrest⟩ := List.forall_mem_cons.mp hts
      rw [List.map_cons, tagsOfItems, tagsOf,
        splitTags_of_comma_not_mem ht.comma_not_mem ht.trimmed, ih hrest]
      rfl

/-- The tags of a stored value are the ones it holds, however it holds them. -/
theorem tagsOf_of_holdsTags (hne : ts ≠ []) (hts : ∀ t ∈ ts, IsTag t) (h : HoldsTags ts value) :
    tagsOf value = lowered ts := by
  cases h with
  | joined hpieces hs => exact splitTags_of_pads hne hts hpieces hs
  | listed => exact tagsOfItems_texts hts

/-! ## Predicates on tags -/

variable {f : Field} {d d' : Datum}

/-- A literal that fits a tag field looks at the tags only. -/
theorem termMatches_eq_of_tagsOf_eq {key : String} {l : Literal} (hl : l.Fits .tag)
    (hd : stored key d = some value) (hd' : stored key d' = some value')
    (htags : tagsOf value = tagsOf value') : termMatches key l d = termMatches key l d' := by
  rw [termMatches, termMatches, hd, hd']
  -- a tag field has no other literals than tags and the absence of a value
  cases hl with
  | tag mode wanted => simp [literalMatches, htags]
  | missing => rfl

/-- A search for neighbours fits no tag field. -/
theorem not_fits_nearest {clause : KnnClause} (hf : f.type = .tag) : ¬ clause.Fits f := by
  intro hfits
  obtain ⟨params, hparams, _⟩ := hfits.dimension
  rw [Field.type] at hf
  rw [Field.vectorParams] at hparams
  cases hkind : f.kind with
  | vector =>
      rw [hkind] at hf
      cases hf
  | _ =>
      rw [hkind] at hparams
      cases hparams

/-- So does a criterion. -/
theorem accepts_eq_of_tagsOf_eq {criterion : Criterion} (hf : f.type = .tag)
    (hfits : criterion.Fits f) (hd : stored f.key d = some value)
    (hd' : stored f.key d' = some value') (htags : tagsOf value = tagsOf value') :
    criterion.accepts f.key d = criterion.accepts f.key d' := by
  have hone : ∀ l : Literal, l.Fits f.type → termMatches f.key l d = termMatches f.key l d' :=
    fun l hl => termMatches_eq_of_tagsOf_eq (hf ▸ hl) hd hd' htags
  have hany : ∀ ls : List Literal, (∀ l ∈ ls, l.Fits f.type) →
      ls.any (termMatches f.key · d) = ls.any (termMatches f.key · d') := by
    intro ls hls
    rw [Bool.eq_iff_iff, List.any_eq_true, List.any_eq_true]
    exact exists_congr fun l => and_congr_right fun hl => by rw [hone l (hls l hl)]
  cases criterion with
  | unconstrained => rfl
  | term l => exact hone l hfits
  | anyOf ls => exact hany ls hfits.2
  | allOf ls =>
      rw [Criterion.accepts, Criterion.accepts, Bool.eq_iff_iff, List.all_eq_true, List.all_eq_true]
      exact forall₂_congr fun l hl => by rw [hone l (hfits.2 l hl)]
  | noneOf ls => rw [Criterion.accepts, Criterion.accepts, hany ls hfits.2]
  | nearest clause => exact absurd hfits (not_fits_nearest hf)

end Matching

/-! ## Numbers in digits -/

namespace Operand

/-- A whole number as the text of its digits. -/
def inDigits : Operand → Operand
  | int n => text (toString n)
  | v => v

/-- The operand with its whole numbers, itself or the members of a list, as texts. -/
def withDigits : Operand → Operand
  | list items => list (items.map inDigits)
  | v => v.inDigits

theorem isEmpty_withDigits (v : Operand) : v.withDigits.isEmpty = v.isEmpty := by
  cases v with
  | int n => simpa [withDigits, inDigits, isEmpty] using Encoding.toString_int_ne_empty n
  | list items => simp [withDigits, isEmpty]
  | _ => rfl

end Operand

namespace Condition

open Encoding Matching Predicate

/-- The condition with the whole numbers in its operands as texts. -/
def withDigits : Condition → Condition
  | equal v => equal v.withDigits
  | notEqual v => notEqual v.withDigits
  | isIn v => isIn v.withDigits
  | notIn v => notIn v.withDigits
  | containsAll v => containsAll v.withDigits
  | between lower upper => between lower.withDigits upper.withDigits
  | greaterThan v => greaterThan v.withDigits
  | atLeast v => atLeast v.withDigits
  | lessThan v => lessThan v.withDigits
  | atMost v => atMost v.withDigits
  | isTrue => isTrue
  | isFalse => isFalse
  | isMissing => isMissing
  | startsWith v => startsWith v.withDigits
  | endsWith v => endsWith v.withDigits
  | containing v => containing v.withDigits
  | like v => like v.withDigits
  | near center radius unit => near center radius unit
  | nearest v k threshold => nearest v.withDigits k threshold

theorem operator_withDigits (c : Condition) : c.withDigits.operator = c.operator := by
  cases c <;> rfl

variable {f : Field}

theorem stringOperand_inDigits (hf : f.type = .tag) (v : Operand) :
    stringOperand f v.inDigits = stringOperand f v := by
  cases v with
  | int n => simp [Operand.inDigits, stringOperand, hf]
  | _ => rfl

theorem stringOperand_withDigits (hf : f.type = .tag) (v : Operand) :
    stringOperand f v.withDigits = stringOperand f v := by
  cases v with
  | int n => exact stringOperand_inDigits hf (.int n)
  | _ => rfl

theorem equalityLiteral_withDigits (hf : f.type = .tag) (op : Operator) (v : Operand) :
    equalityLiteral f op v.withDigits = equalityLiteral f op v := by
  rw [equalityLiteral, equalityLiteral, hf, stringOperand_withDigits hf]

theorem patternLiteral_withDigits (hf : f.type = .tag) (op : Operator) (v : Operand)
    (mode : TextMode) : patternLiteral f op v.withDigits mode = patternLiteral f op v mode := by
  rw [patternLiteral, patternLiteral, hf, stringOperand_withDigits hf]

theorem memberLiterals_withDigits (hf : f.type = .tag) (op : Operator) (v : Operand) :
    memberLiterals f op v.withDigits = memberLiterals f op v := by
  have hone : ∀ w : Operand, equalityLiteral f op w.inDigits = equalityLiteral f op w := by
    intro w
    rw [equalityLiteral, equalityLiteral, hf, stringOperand_inDigits hf]
  have hmembers : v.withDigits.members = v.members.map Operand.inDigits := by
    cases v <;> rfl
  rw [memberLiterals, memberLiterals, hmembers, List.mapM_map]
  exact congrArg v.members.mapM (funext hone)

theorem unlessEmpty_withDigits (op : Operator) (v : Operand)
    (encoded : Except QueryError Criterion) :
    unlessEmpty f op v.withDigits encoded = unlessEmpty f op v encoded := by
  rw [unlessEmpty, unlessEmpty, Operand.isEmpty_withDigits]

/-- On a tag field a whole number is asked for as the text of its digits. -/
theorem of_withDigits (hf : f.type = .tag) (c : Condition) : of f c.withDigits = of f c := by
  rw [of, of, operator_withDigits]
  by_cases hsupported : c.operator.supports f.type = true
  · rw [if_pos hsupported, if_pos hsupported]
    have hcriterion : criterionOf f c.withDigits = criterionOf f c := by
      rw [hf] at hsupported
      cases c with
      | equal v | notEqual v =>
          simp only [withDigits, criterionOf, unlessEmpty_withDigits,
            equalityLiteral_withDigits hf]
          rfl
      | isIn v | notIn v | containsAll v =>
          simp only [withDigits, criterionOf, unlessEmpty_withDigits, memberLiterals_withDigits hf]
          rfl
      | startsWith v | endsWith v | containing v =>
          simp only [withDigits, criterionOf, pattern, unlessEmpty_withDigits,
            patternLiteral_withDigits hf]
          rfl
      | isMissing => rfl
      | _ => cases hsupported
    rw [hcriterion]
  · rw [if_neg hsupported, if_neg hsupported]

/-! ## Conditions on tags -/

/-- The condition can be asked of the field, and the document meets it exactly when the statement
holds. -/
def Asks (c : Condition) (f : Field) (d : Datum) (statement : Prop) : Prop :=
  c.AppliesTo f ∧ (c.Accepts f d ↔ statement)

variable {ts vs : List String} {v : String} {value : Datum} {d : Datum}

theorem appliesTo_equal_tag (hf : f.type = .tag) (v : String) : (equal (.text v)).AppliesTo f := by
  have hsupported : (equal (.text v)).operator.supports f.type = true := hf ▸ rfl
  have hexact : tagMode? .exact = some .exact := rfl
  rw [appliesTo_iff hsupported]
  by_cases hv : v = ""
  · exact ⟨_, hv ▸ criterionOf_inMode_empty f .exact⟩
  · exact ⟨_, criterionOf_inMode_tag hf hexact hv⟩

/-- To equal a text is to have it among the tags, up to letter case. -/
theorem asks_equal (hf : f.type = .tag) (hv : v ≠ "") (hstored : stored f.key d = some value)
    (htags : tagsOf value = lowered ts) :
    (equal (.text v)).Asks f d (Text.lowercase v.toList ∈ lowered ts) := by
  have hexact : tagMode? .exact = some .exact := rfl
  have hequal : (inMode .exact (.text v)).Accepts f d ↔ Text.lowercase v.toList ∈ lowered ts := by
    rw [accepts_inMode_tag hf hexact hv, hstored]
    simp [tagMatches_exact_iff, htags]
  exact ⟨appliesTo_equal_tag hf v, hequal⟩

/-- The conditions on a list of texts ask for some, all or none of them among the tags. -/
theorem asks_list (hf : f.type = .tag) (hne : vs ≠ []) (hvs : ∀ v ∈ vs, v ≠ "")
    (hstored : stored f.key d = some value) (htags : tagsOf value = lowered ts) :
    (isIn (.list (vs.map .text))).Asks f d (∃ v ∈ vs, Text.lowercase v.toList ∈ lowered ts) ∧
    (containsAll (.list (vs.map .text))).Asks f d
      (∀ v ∈ vs, Text.lowercase v.toList ∈ lowered ts) ∧
    (notIn (.list (vs.map .text))).Asks f d (∀ v ∈ vs, Text.lowercase v.toList ∉ lowered ts) := by
  have hequal : Operator.equal.supports f.type = true := hf ▸ rfl
  have hisIn : Operator.isIn.supports f.type = true := hf ▸ rfl
  have hnotIn : Operator.notIn.supports f.type = true := hf ▸ rfl
  have hcontainsAll : Operator.containsAll.supports f.type = true := hf ▸ rfl
  have hoperandsNe : vs.map Operand.text ≠ [] := by simpa using hne
  have hoperands : ∀ w ∈ vs.map Operand.text, w.isEmpty = false := by
    simpa [Operand.isEmpty] using hvs
  have happlies : ∀ w ∈ vs.map Operand.text, (equal w).AppliesTo f := by
    simpa using fun v _ => appliesTo_equal_tag hf v
  have hone : ∀ v ∈ vs, (equal (.text v)).Accepts f d ↔ Text.lowercase v.toList ∈ lowered ts :=
    fun v hv => (asks_equal hf (hvs v hv) hstored htags).2
  have hsome : (∃ w ∈ vs.map Operand.text, (equal w).Accepts f d) ↔
      ∃ v ∈ vs, Text.lowercase v.toList ∈ lowered ts := by
    simp only [List.mem_map, exists_exists_and_eq_and]
    exact exists_congr fun v => and_congr_right (hone v)
  have hevery : (∀ w ∈ vs.map Operand.text, (equal w).Accepts f d) ↔
      ∀ v ∈ vs, Text.lowercase v.toList ∈ lowered ts := by
    rw [List.forall_mem_map]
    exact forall₂_congr hone
  obtain ⟨haccepts, hrejects, hacceptsAll⟩ :=
    accepts_list (d := d) hisIn hequal hoperandsNe hoperands happlies
  refine ⟨⟨?_, ?_⟩, ⟨?_, ?_⟩, ⟨?_, ?_⟩⟩
  · exact (appliesTo_list (c := isIn (.list (vs.map .text))) hequal hoperands hisIn
      (criterionOf_list hequal hoperandsNe .isIn .anyOf)).mpr happlies
  · exact haccepts.trans hsome
  · exact (appliesTo_list (c := containsAll (.list (vs.map .text))) hequal hoperands hcontainsAll
      (criterionOf_list hequal hoperandsNe .containsAll .allOf)).mpr happlies
  · exact (hacceptsAll hf).trans hevery
  · exact (appliesTo_list (c := notIn (.list (vs.map .text))) hequal hoperands hnotIn
      (criterionOf_list hequal hoperandsNe .notIn .noneOf)).mpr happlies
  · rw [hrejects, hsome]
    simp only [not_exists, not_and]

/-- What a tag field is asked for depends on the tags of a document, and not on how they are stored.
To equal a text is to have it among the tags; to equal the empty text is nothing asked for. Lists
ask for some, all or none of their members, and whole numbers for the texts of their digits. -/
theorem tag_conditions_are_set_operations (hf : f.type = .tag) (hne : ts ≠ [])
    (hts : ∀ t ∈ ts, IsTag t) (hstored : stored f.key d = some value)
    (hholds : HoldsTags ts value) :
    (∀ d' value', stored f.key d' = some value' → HoldsTags ts value' →
      ∀ p, IsReturned f p → (compile [p]).accepts d = (compile [p]).accepts d') ∧
    ((equal (.text "")).Accepts f d ∧
      ∀ v ≠ "", (equal (.text v)).Asks f d (Text.lowercase v.toList ∈ lowered ts)) ∧
    (∀ vs ≠ [], (∀ v ∈ vs, v ≠ "") →
      (isIn (.list (vs.map .text))).Asks f d (∃ v ∈ vs, Text.lowercase v.toList ∈ lowered ts) ∧
      (containsAll (.list (vs.map .text))).Asks f d
        (∀ v ∈ vs, Text.lowercase v.toList ∈ lowered ts) ∧
      (notIn (.list (vs.map .text))).Asks f d (∀ v ∈ vs, Text.lowercase v.toList ∉ lowered ts)) ∧
    ∀ c, of f (withDigits c) = of f c := by
  have htags : tagsOf value = lowered ts := tagsOf_of_holdsTags hne hts hholds
  refine ⟨fun d' value' hstored' hholds' p hp => ?_, ⟨?_, fun v hv => ?_⟩, fun vs hvsNe hvs => ?_,
    of_withDigits hf⟩
  · obtain ⟨hfield, hfits⟩ := fits_of_isReturned hp
    have htags' : tagsOf value' = lowered ts := tagsOf_of_holdsTags hne hts hholds'
    rw [accepts_compile_one, accepts_compile_one, hfield]
    exact accepts_eq_of_tagsOf_eq hf hfits hstored hstored' (htags.trans htags'.symm)
  · have hsupported : (inMode .exact (.text "")).operator.supports f.type = true := hf ▸ rfl
    exact accepts_inMode_empty hsupported
  · exact asks_equal hf hv hstored htags
  · exact asks_list hf hvsNe hvs hstored htags

/-- Two tags in a text with blanks around the comma, and in a list. -/
theorem tag_conditions_are_set_operations_two_tags :
    let shelf : Field := ⟨"shelf", "shelf", .tag, false, by decide, by decide, by decide⟩
    let d : Datum := .record [("shelf", .text "Attic , b 7")]
    let d' : Datum := .record [("shelf", .list [.text "Attic", .text "b 7"])]
    shelf.type = .tag ∧ HoldsTags ["Attic", "b 7"] (.text "Attic , b 7") ∧
      HoldsTags ["Attic", "b 7"] (.list [.text "Attic", .text "b 7"]) ∧
      (∀ p, IsReturned shelf p → (compile [p]).accepts d = (compile [p]).accepts d') ∧
      (equal (.text "ATTIC")).Accepts shelf d ∧
      (isIn (.list [.text "c", .text "B 7"])).Accepts shelf d ∧
      ¬ (containsAll (.list [.text "c", .text "B 7"])).Accepts shelf d ∧
      (notIn (.list [.text "7", .text "c"])).Accepts shelf d ∧
      of shelf (isIn (.list [.text "c", .int (-7)])) =
        of shelf (isIn (.list [.text "c", .text "-7"])) := by
  intro shelf d d'
  have hts : ∀ t ∈ ["Attic", "b 7"], IsTag t := by
    intro t ht
    simp only [List.mem_cons, List.not_mem_nil, or_false] at ht
    rcases ht with rfl | rfl <;> exact ⟨by decide, by decide, by decide⟩
  have hjoined : HoldsTags ["Attic", "b 7"] (.text "Attic , b 7") := by
    have hpieces : List.Forall₂ Pads ["Attic", "b 7"] ["Attic ".toList, " b 7".toList] :=
      .cons ⟨[], [' '], by decide⟩ (.cons ⟨[' '], [], by decide⟩ .nil)
    exact .joined hpieces (.more (by decide) .one)
  have hlisted : HoldsTags ["Attic", "b 7"] (.list [.text "Attic", .text "b 7"]) := .listed
  obtain ⟨hsame, ⟨-, hequal⟩, hlist, hdigits⟩ :=
    tag_conditions_are_set_operations (f := shelf) (d := d) rfl (by decide) hts rfl hjoined
  obtain ⟨hisIn, hcontainsAll, -⟩ := hlist ["c", "B 7"] (by decide) (by decide)
  obtain ⟨-, -, hnotIn⟩ := hlist ["7", "c"] (by decide) (by decide)
  refine ⟨rfl, hjoined, hlisted, hsame d' _ rfl hlisted, ?_, ?_, ?_, ?_, ?_⟩
  · exact (hequal "ATTIC" (by decide)).2.mpr (by decide +kernel)
  · exact hisIn.2.mpr (by decide +kernel)
  · exact mt hcontainsAll.2.mp (by decide +kernel)
  · exact hnotIn.2.mpr (by decide +kernel)
  · exact (hdigits (isIn (.list [.text "c", .int (-7)]))).symm

/-- The empty text is no tag, but to equal it is nothing asked for. -/
theorem empty_text_equals_any_tags :
    let shelf : Field := ⟨"shelf", "shelf", .tag, false, by decide, by decide, by decide⟩
    let d : Datum := .record [("shelf", .text "a")]
    shelf.type = .tag ∧ IsTag "a" ∧ stored shelf.key d = some (.text "a") ∧
      HoldsTags ["a"] (.text "a") ∧ (equal (.text "")).Accepts shelf d ∧
      Text.lowercase "".toList ∉ lowered ["a"] := by
  intro shelf d
  refine ⟨rfl, ⟨by decide, by decide, by decide⟩, rfl, ?_, ⟨_, rfl, by decide +kernel⟩,
    by decide +kernel⟩
  exact .joined (.cons ⟨[], [], by decide⟩ .nil) .one

end Condition

end IndexQuery
