import IndexQuery.Filter.Text
import IndexQuery.Proofs.Encoding.Sources
import IndexQuery.Proofs.Text.Trimming
set_option autoImplicit false

/-! # The parts of a textual filter

A textual filter is cut at its first two colons: the field stands in front of the first, the
operator between them, and the value behind the second, whatever it holds (`Written`). Only a filter
for absent values may end with its operator. `ofText_eq_ok_iff` says that the texts written in this
way, with a field that is not blank, are the ones that are read, and what they are read as. -/

namespace IndexQuery

namespace Filter

/-- A text that has a field, an operator and a value. -/
inductive Written (text : String) (field : List Char) : FilterOperator → List Char → Prop
  /-- all three parts, between the first two colons and around them -/
  | valued {word value : List Char} {op : FilterOperator} :
      text.toList = field ++ ':' :: (word ++ ':' :: value) → ':' ∉ field → ':' ∉ word →
      FilterOperator.ofText word = .ok op → Written text field op value
  /-- a field and the operator for absent values, which needs no value -/
  | bare {word : List Char} : text.toList = field ++ ':' :: word → ':' ∉ field → ':' ∉ word →
      FilterOperator.ofText word = .ok .missing → Written text field .missing []

/-- The filter that the parts of a text are read as. -/
def ofWritten (field : List Char) (op : FilterOperator) (value : List Char) : Filter :=
  ⟨String.ofList (Text.trim field), op, (valuesOf op value).map String.ofList⟩

variable {text : String} {field word value rest : List Char} {op : FilterOperator} {filter : Filter}

/-- The first cut is made before the second. -/
theorem Written.of_splitFirst (hfirst : Text.splitFirst ':' text.toList = some (field, rest))
    (hsecond : Text.splitFirst ':' rest = some (word, value))
    (hop : FilterOperator.ofText word = .ok op) : Written text field op value := by
  obtain ⟨htext, hfield⟩ := Text.splitFirst_eq_some_iff.mp hfirst
  obtain ⟨rfl, hword⟩ := Text.splitFirst_eq_some_iff.mp hsecond
  exact .valued htext hfield hword hop

theorem ofParts_eq (malformed : QueryError) (field : List Char) (op : FilterOperator)
    (value : List Char) :
    ofParts malformed field op value =
      if Text.isBlankText field then .error malformed else .ok (ofWritten field op value) := by
  rw [← Text.isEmpty_trim]
  rfl

/-- The reading of a text with two colons. -/
theorem ofText_valued (htext : text.toList = field ++ ':' :: (word ++ ':' :: value))
    (hfield : ':' ∉ field) (hword : ':' ∉ word) :
    ofText text = (FilterOperator.ofText word).bind fun op =>
      ofParts (.invalidRequest (.malformedFilter text)) field op value := by
  have hfirst : Text.splitFirst ':' text.toList = some (field, word ++ ':' :: value) := by
    rw [htext, Text.splitFirst_append hfield]
  have hsecond : Text.splitFirst ':' (word ++ ':' :: value) = some (word, value) :=
    Text.splitFirst_append hword
  simp only [ofText, hfirst, hsecond]
  rfl

/-- The reading of a text with one colon. -/
theorem ofText_bare (htext : text.toList = field ++ ':' :: word) (hfield : ':' ∉ field)
    (hword : ':' ∉ word) :
    ofText text = (FilterOperator.ofText word).bind fun op =>
      if op = .missing then ofParts (.invalidRequest (.malformedFilter text)) field op []
      else .error (.invalidRequest (.malformedFilter text)) := by
  have hfirst : Text.splitFirst ':' text.toList = some (field, word) := by
    rw [htext, Text.splitFirst_append hfield]
  have hsecond : Text.splitFirst ':' word = none := Text.splitFirst_eq_none_iff.mpr hword
  simp only [ofText, hfirst, hsecond]
  rfl

/-- The reading of a text that has the three parts. -/
theorem ofText_of_written (h : Written text field op value) :
    ofText text =
      if Text.isBlankText field then .error (.invalidRequest (.malformedFilter text))
      else .ok (ofWritten field op value) := by
  cases h with
  | valued htext hfield hword hop =>
      rw [ofText_valued htext hfield hword, hop]
      exact ofParts_eq _ field op value
  | bare htext hfield hword hop =>
      rw [ofText_bare htext hfield hword, hop]
      exact ofParts_eq _ field .missing []

theorem eq_ofWritten_of_ofParts {malformed : QueryError}
    (h : ofParts malformed field op value = .ok filter) :
    Text.isBlankText field = false ∧ filter = ofWritten field op value := by
  rw [ofParts_eq] at h
  cases hblank : Text.isBlankText field with
  | true =>
      rw [if_pos hblank] at h
      cases h
  | false =>
      rw [if_neg (by simp [hblank])] at h
      exact ⟨rfl, (Except.ok.inj h).symm⟩

theorem exists_written (h : ofText text = .ok filter) :
    ∃ field op value, Written text field op value ∧ Text.isBlankText field = false ∧
      filter = ofWritten field op value := by
  -- the cuts of the text are its parts: without a first one there is no field, without a second
  -- one the operator must be the one that needs no value
  cases hfirst : Text.splitFirst ':' text.toList with
  | none =>
      simp only [ofText, hfirst] at h
      cases h
  | some parts =>
      obtain ⟨field, rest⟩ := parts
      obtain ⟨htext, hfield⟩ := Text.splitFirst_eq_some_iff.mp hfirst
      cases hsecond : Text.splitFirst ':' rest with
      | some parts =>
          obtain ⟨word, value⟩ := parts
          obtain ⟨rfl, hword⟩ := Text.splitFirst_eq_some_iff.mp hsecond
          rw [ofText_valued htext hfield hword] at h
          obtain ⟨op, hop, h⟩ := bind_eq_ok h
          exact ⟨field, op, value, .valued htext hfield hword hop, eq_ofWritten_of_ofParts h⟩
      | none =>
          have hword := Text.splitFirst_eq_none_iff.mp hsecond
          rw [ofText_bare htext hfield hword] at h
          obtain ⟨op, hop, h⟩ := bind_eq_ok h
          split at h
          · next hmissing =>
              subst hmissing
              exact ⟨field, .missing, [], .bare htext hfield hword hop, eq_ofWritten_of_ofParts h⟩
          · cases h

/-- A text is read as a filter exactly when it is written as one, with a field that is not blank. -/
theorem ofText_eq_ok_iff :
    ofText text = .ok filter ↔ ∃ field op value, Written text field op value ∧
      Text.isBlankText field = false ∧ filter = ofWritten field op value := by
  constructor
  · exact exists_written
  · rintro ⟨field, op, value, h, hvisible, rfl⟩
    rw [ofText_of_written h, if_neg (by simp [hvisible])]

end Filter

end IndexQuery
