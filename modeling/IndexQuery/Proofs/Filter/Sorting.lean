import IndexQuery.Proofs.Filter.Resolution
import IndexQuery.Proofs.Schema
set_option autoImplicit false

/-! # Sorting by a name

A query names the field to sort by without regard to blanks around the name and to letter case, so
a name can be that of several fields of a schema. The first of them is the field that is meant
(`FirstCalled`), and it must be open to sorting; `sortKey_eq_ok_iff` and `sortKey_eq_error_iff` say
when there is a sort key and what is reported when there is none. In particular the name of a field
does not always sort by the field: it does so exactly when no field declared before it has the same
name up to letter case (`sort_by_own_name`). -/

namespace IndexQuery

namespace Schema

/-- The field is the first with the given name, blanks around the name and letter case left
aside. -/
def FirstCalled (schema : Schema) (name : String) (f : Field) : Prop :=
  ∃ before after, schema.fields = before ++ f :: after ∧
    Text.sameLatin f.name.toList (Text.trim name.toList) = true ∧
    ∀ e ∈ before, Text.sameLatin e.name.toList (Text.trim name.toList) = false

variable {schema : Schema} {name : String} {f g : Field}

theorem firstCalled_iff_find? : schema.FirstCalled name f ↔
    schema.fields.find? (fun g => Text.sameLatin g.name.toList (Text.trim name.toList))
      = some f := by
  rw [List.find?_eq_some_iff_append]
  constructor
  · rintro ⟨before, after, hfields, hname, hbefore⟩
    exact ⟨hname, before, after, hfields, by simpa using hbefore⟩
  · rintro ⟨hname, before, after, hfields, hbefore⟩
    exact ⟨before, after, hfields, hname, by simpa using hbefore⟩

theorem FirstCalled.unique (hf : schema.FirstCalled name f) (hg : schema.FirstCalled name g) :
    f = g :=
  Option.some.inj ((firstCalled_iff_find?.mp hf).symm.trans (firstCalled_iff_find?.mp hg))

/-- The first field with a name up to letter case is the first with its own name. -/
theorem FirstCalled.field_eq (h : schema.FirstCalled name f) : schema.field f.name = .ok f := by
  obtain ⟨before, after, hfields, hname, hbefore⟩ := h
  refine field_eq_ok_iff.mpr ⟨before, after, hfields, rfl, fun e he heq => ?_⟩
  have hother := hbefore e he
  rw [heq, hname] at hother
  cases hother

end Schema

namespace FilterQuery

open Schema (FirstCalled)

variable {s : SearchStream} {name : String} {f : Field} {order : SortOrder}

/-! ## The sort key of a name -/

theorem sorted_of_firstCalled (h : FirstCalled s.schema name f) :
    sorted s name order =
      if f.sortable then .ok { s with sort := some ⟨f.key, order⟩ }
      else .error (.notSortable f.name) := by
  unfold sorted
  rw [Schema.firstCalled_iff_find?.mp h]
  show (s.schema.field f.name).bind _ = _
  rw [h.field_eq]
  rfl

theorem sorted_of_unknown
    (h : ∀ f ∈ s.schema.fields, Text.sameLatin f.name.toList (Text.trim name.toList) = false) :
    sorted s name order = .error (.invalidRequest (.unknownSortField name)) := by
  have hnone : s.schema.fields.find?
      (fun f => Text.sameLatin f.name.toList (Text.trim name.toList)) = none := by
    simpa using h
  unfold sorted
  rw [hnone]

/-- A name is that of no field, or there is a first one with it. -/
theorem unknown_or_firstCalled (schema : Schema) (name : String) :
    (∀ f ∈ schema.fields, Text.sameLatin f.name.toList (Text.trim name.toList) = false) ∨
      ∃ f, FirstCalled schema name f := by
  cases hfound : schema.fields.find?
      (fun f => Text.sameLatin f.name.toList (Text.trim name.toList)) with
  | none => exact .inl (by simpa using hfound)
  | some f => exact .inr ⟨f, Schema.firstCalled_iff_find?.mpr hfound⟩

/-- What is reported of a name that no sort key belongs to. -/
inductive SortFails (schema : Schema) (name : String) : QueryError → Prop
  /-- no field has the name -/
  | unknown : (∀ f ∈ schema.fields, Text.sameLatin f.name.toList (Text.trim name.toList) = false) →
      SortFails schema name (.invalidRequest (.unknownSortField name))
  /-- the field with the name is not open to sorting -/
  | closed {f : Field} : FirstCalled schema name f → f.sortable = false →
      SortFails schema name (.notSortable f.name)

variable {q : FilterQuery} {schema : Schema}

theorem sortKey_of_firstCalled (hname : q.sortBy = some name) (h : FirstCalled schema name f) :
    q.sortKey schema =
      if f.sortable then .ok (some ⟨f.key, q.sortOrder.getD .asc⟩)
      else .error (.notSortable f.name) := by
  have hsorted : sorted { schema := schema } name (q.sortOrder.getD .asc) = _ :=
    sorted_of_firstCalled h
  simp only [sortKey, hname, hsorted]
  cases f.sortable <;> rfl

theorem sortKey_of_unknown (hname : q.sortBy = some name)
    (h : ∀ f ∈ schema.fields, Text.sameLatin f.name.toList (Text.trim name.toList) = false) :
    q.sortKey schema = .error (.invalidRequest (.unknownSortField name)) := by
  have hsorted : sorted { schema := schema } name (q.sortOrder.getD .asc) = _ :=
    sorted_of_unknown h
  simp only [sortKey, hname, hsorted]
  rfl

/-- There is a sort key when none is asked for, and when the first field with the name is open to
sorting. -/
theorem sortKey_eq_ok_iff {sort : Option SearchSort} :
    q.sortKey schema = .ok sort ↔
      q.sortBy = none ∧ sort = none ∨
      ∃ name f, q.sortBy = some name ∧ FirstCalled schema name f ∧ f.sortable = true ∧
        sort = some ⟨f.key, q.sortOrder.getD .asc⟩ := by
  constructor
  · intro h
    cases hname : q.sortBy with
    | none =>
        simp only [sortKey, hname] at h
        exact .inl ⟨rfl, (Except.ok.inj h).symm⟩
    | some name =>
        rcases unknown_or_firstCalled schema name with hunknown | ⟨f, hf⟩
        · rw [sortKey_of_unknown hname hunknown] at h
          cases h
        · rw [sortKey_of_firstCalled hname hf] at h
          by_cases hsortable : f.sortable = true
          · rw [if_pos hsortable] at h
            exact .inr ⟨name, f, rfl, hf, hsortable, (Except.ok.inj h).symm⟩
          · rw [if_neg hsortable] at h
            cases h
  · rintro (⟨hname, rfl⟩ | ⟨name, f, hname, hf, hsortable, rfl⟩)
    · simp only [sortKey, hname]
    · rw [sortKey_of_firstCalled hname hf, if_pos hsortable]

theorem sortKey_eq_error_iff {e : QueryError} :
    q.sortKey schema = .error e ↔ ∃ name, q.sortBy = some name ∧ SortFails schema name e := by
  constructor
  · intro h
    cases hname : q.sortBy with
    | none =>
        simp only [sortKey, hname] at h
        cases h
    | some name =>
        refine ⟨name, rfl, ?_⟩
        rcases unknown_or_firstCalled schema name with hunknown | ⟨f, hf⟩
        · rw [sortKey_of_unknown hname hunknown] at h
          cases h
          exact .unknown hunknown
        · rw [sortKey_of_firstCalled hname hf] at h
          cases hsortable : f.sortable with
          | true =>
              rw [if_pos hsortable] at h
              cases h
          | false =>
              rw [if_neg (by simp [hsortable])] at h
              cases h
              exact .closed hf hsortable
  · rintro ⟨name, hname, hfails⟩
    cases hfails with
    | unknown hunknown => exact sortKey_of_unknown hname hunknown
    | closed hf hsortable =>
        rw [sortKey_of_firstCalled hname hf, if_neg (by simp [hsortable])]

/-- Without filters, the first field with the name decides about the whole query. -/
theorem stream_of_firstCalled (config : SearchConfig) (hname : q.sortBy = some name)
    (hfilters : q.filters = []) (h : FirstCalled schema name f) :
    q.stream schema config =
      if f.sortable then
        .ok { q.window schema config with sort := some ⟨f.key, q.sortOrder.getD .asc⟩ }
      else .error (.notSortable f.name) := by
  rw [stream_eq, sortKey_of_firstCalled hname h, hfilters]
  cases f.sortable <;> rfl

/-! ## The name of a field -/

/-- A field is sorted by when its own name is given, unless a field declared before it has the same
name up to letter case. In any case the first field with the name decides: its key is the sort key,
or it is reported as not open to sorting. -/
theorem sort_by_own_name {index idField : String} {fields before after : List Field}
    {f : Field} (config : SearchConfig) (hbuild : Schema.build index idField fields = .ok schema)
    (hfields : schema.fields = before ++ f :: after) (hsortable : f.sortable = true)
    (htrimmed : Text.trim f.name.toList = f.name.toList) (hname : q.sortBy = some f.name)
    (hfilters : q.filters = []) :
    ((∃ s key, q.stream schema config = .ok s ∧ s.sort = some key ∧ key.key = f.key) ↔
      ∀ e ∈ before, Text.sameLatin e.name.toList f.name.toList = false) ∧
    ∃ g, FirstCalled schema f.name g ∧
      q.stream schema config =
        if g.sortable then
          .ok { q.window schema config with sort := some ⟨g.key, q.sortOrder.getD .asc⟩ }
        else .error (.notSortable g.name) := by
  have hsame : Text.sameLatin f.name.toList (Text.trim f.name.toList) = true := by
    rw [htrimmed]
    simp [Text.sameLatin]
  have hmem : f ∈ schema.fields := by simp [hfields]
  obtain ⟨g, hg⟩ : ∃ g, FirstCalled schema f.name g := by
    rcases unknown_or_firstCalled schema f.name with hunknown | hfound
    · rw [hunknown f hmem] at hsame
      cases hsame
    · exact hfound
  have hstream := stream_of_firstCalled config hname hfilters hg
  refine ⟨⟨?_, ?_⟩, g, hg, hstream⟩
  · rintro ⟨s, key, hs, hsort, hkey⟩
    obtain ⟨earlier, later, hplace, hcalled, hearlier⟩ := hg
    -- the stream is sorted by the key of the first field, and keys tell fields apart
    have hgf : g = f := by
      rw [hstream] at hs
      split at hs
      · cases Except.ok.inj hs
        cases hsort
        exact Schema.eq_of_key hbuild (by simp [hplace]) hmem hkey
      · cases hs
    subst hgf
    -- it is declared once, so what is before it here is what is before it in the statement
    obtain ⟨rfl, -⟩ := Schema.place_unique hbuild hfields hplace
    rwa [htrimmed] at hearlier
  · intro hbefore
    have hf : FirstCalled schema f.name f :=
      ⟨before, after, hfields, hsame, by rwa [htrimmed]⟩
    cases hf.unique hg
    rw [hstream, if_pos hsortable]
    exact ⟨_, _, rfl, rfl, rfl⟩

/-- The last of three fields is sorted by under its own name, although the other two share theirs up
to letter case. -/
theorem sort_by_own_name_last :
    let upper : Field := ⟨"Age", "a", .numeric, true, by decide, by decide, by decide⟩
    let lower : Field := ⟨"age", "b", .numeric, true, by decide, by decide, by decide⟩
    let size : Field := ⟨"size", "c", .numeric, true, by decide, by decide, by decide⟩
    let schema : Schema := ⟨"people", "id", [upper, lower, size]⟩
    let q : FilterQuery := { page := some 2, sortBy := some "size", sortOrder := some .desc }
    Schema.build "people" "id" [upper, lower, size] = .ok schema ∧
      Text.trim "size".toList = "size".toList ∧
      ∃ s key, q.stream schema .default = .ok s ∧ s.sort = some key ∧ key.key = "c" := by
  intro upper lower size schema q
  have hbuild : Schema.build "people" "id" [upper, lower, size] = .ok schema := by decide
  have htrimmed : Text.trim "size".toList = "size".toList := by decide
  have hfields : schema.fields = [upper, lower] ++ size :: [] := rfl
  have hname : q.sortBy = some size.name := rfl
  have hown := (sort_by_own_name .default hbuild hfields rfl htrimmed hname rfl).1
  exact ⟨hbuild, htrimmed, hown.mpr (by decide)⟩

/-- Of two fields whose names differ in letter case only, the second is not sorted by under its own
name: the sort key is that of the first, or the first is reported as not open to sorting. -/
theorem own_name_sorts_by_other_case :
    let upper (sortable : Bool) : Field :=
      ⟨"Age", "a", .numeric, sortable, by decide, by decide, by decide⟩
    let lower : Field := ⟨"age", "b", .numeric, true, by decide, by decide, by decide⟩
    let schema (sortable : Bool) : Schema := ⟨"people", "id", [upper sortable, lower]⟩
    let q : FilterQuery := { sortBy := some "age" }
    (∀ sortable, Schema.build "people" "id" [upper sortable, lower] = .ok (schema sortable)) ∧
      Text.trim lower.name.toList = lower.name.toList ∧
      (∃ s, q.stream (schema true) .default = .ok s ∧ s.sort = some ⟨"a", .asc⟩) ∧
      q.stream (schema false) .default = .error (.notSortable "Age") ∧
      ∀ sortable, ¬ ∃ s key, q.stream (schema sortable) .default = .ok s ∧ s.sort = some key ∧
        key.key = lower.key := by
  intro upper lower schema q
  have hsorted : q.stream (schema true) .default
      = .ok { q.window (schema true) .default with sort := some ⟨"a", .asc⟩ } := by
    decide +kernel
  have hclosed : q.stream (schema false) .default = .error (.notSortable "Age") := by
    decide +kernel
  refine ⟨by decide, by decide, ⟨_, hsorted, rfl⟩, hclosed, ?_⟩
  rintro sortable ⟨s, key, hs, hsort, hkey⟩
  cases sortable with
  | false =>
      rw [hclosed] at hs
      cases hs
  | true =>
      rw [hsorted] at hs
      cases Except.ok.inj hs
      cases hsort
      exact absurd hkey (by decide)

end FilterQuery

end IndexQuery
