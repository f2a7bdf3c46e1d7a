import IndexQuery.Proofs.Filter.Sorting
set_option autoImplicit false

/-! # A query is all or nothing

A query has a stream exactly when its sort name belongs to a field open to sorting and each of its
filters asks for a predicate (`AsksFor`): the text is a filter, the schema has a field of its name,
and the filter fits the field. The stream then holds one predicate for each filter, in order.
Otherwise the first thing that is wrong is reported (`Reports`): the sort name comes before the
filters, and of a filter its text before its field before its value. Both depend on the schema, the
sort name and the filters only (`stream_all_or_nothing`). -/

namespace IndexQuery

namespace FilterQuery

open Schema (FirstCalled)

variable {schema : Schema} {raw : String} {p : Predicate} {e : QueryError}

/-! ## One filter -/

/-- A text asks for a predicate: it is a filter, it names a field of the schema, and the predicate
is what it asks of this field. -/
inductive AsksFor (schema : Schema) (raw : String) (p : Predicate) : Prop
  | intro {filter : Filter} {f : Field} : Filter.ofText raw = .ok filter →
      schema.field filter.field = .ok f → filter.predicate f = .ok p → AsksFor schema raw p

/-- What is reported of a text that asks for no predicate. -/
inductive FilterFails (schema : Schema) (raw : String) : QueryError → Prop
  /-- the text is not a filter -/
  | unreadable {e : QueryError} : Filter.ofText raw = .error e → FilterFails schema raw e
  /-- no field has the name -/
  | unknown {filter : Filter} : Filter.ofText raw = .ok filter →
      (∀ f ∈ schema.fields, f.name ≠ filter.field) →
      FilterFails schema raw (.unknownField schema.index filter.field)
  /-- the filter does not fit the field -/
  | unfit {filter : Filter} {f : Field} {e : QueryError} : Filter.ofText raw = .ok filter →
      schema.field filter.field = .ok f → filter.predicate f = .error e → FilterFails schema raw e

/-- The three steps of a filter. -/
theorem predicateOf_eq (schema : Schema) (raw : String) :
    predicateOf schema raw = (Filter.ofText raw).bind fun filter =>
      (schema.field filter.field).bind fun f => filter.predicate f := rfl

theorem predicateOf_eq_ok_iff : predicateOf schema raw = .ok p ↔ AsksFor schema raw p := by
  constructor
  · intro h
    obtain ⟨filter, hfilter, h⟩ := bind_eq_ok h
    obtain ⟨f, hf, h⟩ := bind_eq_ok h
    exact .intro hfilter hf h
  · rintro ⟨hfilter, hf, hp⟩
    simp only [predicateOf_eq, hfilter, Except.bind, hf, hp]

theorem predicateOf_eq_error_iff :
    predicateOf schema raw = .error e ↔ FilterFails schema raw e := by
  rw [predicateOf_eq, bind_eq_error_iff]
  constructor
  · rintro (h | ⟨filter, hfilter, h⟩)
    · exact .unreadable h
    · rcases bind_eq_error_iff.mp h with h | ⟨f, hf, h⟩
      · obtain ⟨hunknown, rfl⟩ := Schema.field_eq_error_iff.mp h
        exact .unknown hfilter hunknown
      · exact .unfit hfilter hf h
  · intro h
    cases h with
    | unreadable h => exact .inl h
    | unknown hfilter hunknown =>
        have hfield := Schema.field_eq_error_iff.mpr ⟨hunknown, rfl⟩
        exact .inr ⟨_, hfilter, bind_eq_error_iff.mpr (.inl hfield)⟩
    | unfit hfilter hf h => exact .inr ⟨_, hfilter, bind_eq_error_iff.mpr (.inr ⟨_, hf, h⟩)⟩

/-! ## The whole query -/

/-- A sort name is absent, or it belongs to a field open to sorting. -/
def SortFits (schema : Schema) (sortBy : Option String) : Prop :=
  ∀ name ∈ sortBy, ∃ f, FirstCalled schema name f ∧ f.sortable = true

/-- What is reported of a sort name and filters that give no stream. -/
inductive Reports (schema : Schema) (sortBy : Option String) (filters : List String) :
    QueryError → Prop
  /-- the sort name fails, whatever the filters are -/
  | sort {name : String} {e : QueryError} : sortBy = some name → SortFails schema name e →
      Reports schema sortBy filters e
  /-- a filter fails, and none before it does -/
  | filter {before after : List String} {raw : String} {e : QueryError} :
      SortFits schema sortBy → filters = before ++ raw :: after →
      (∀ earlier ∈ before, ∃ p, AsksFor schema earlier p) → FilterFails schema raw e →
      Reports schema sortBy filters e

variable {q : FilterQuery}

theorem sortKey_succeeds_iff :
    (∃ sort, q.sortKey schema = .ok sort) ↔ SortFits schema q.sortBy := by
  unfold SortFits
  constructor
  · rintro ⟨sort, h⟩ name hname
    rcases sortKey_eq_ok_iff.mp h with ⟨hnone, -⟩ | ⟨name', f, hname', hf, hsortable, -⟩
    · rw [hnone] at hname
      cases hname
    · rw [hname'] at hname
      cases Option.some.inj hname
      exact ⟨f, hf, hsortable⟩
  · intro hfits
    cases hname : q.sortBy with
    | none => exact ⟨none, sortKey_eq_ok_iff.mpr (.inl ⟨hname, rfl⟩)⟩
    | some name =>
        obtain ⟨f, hf, hsortable⟩ := hfits name (by rw [hname]; rfl)
        exact ⟨_, sortKey_eq_ok_iff.mpr (.inr ⟨name, f, hname, hf, hsortable, rfl⟩)⟩

theorem filters_succeed_iff :
    (∃ ps, q.filters.mapM (predicateOf schema) = .ok ps) ↔
      ∀ raw ∈ q.filters, ∃ p, AsksFor schema raw p := by
  simp only [mapM_succeeds_iff, predicateOf_eq_ok_iff]

theorem stream_succeeds_iff {config : SearchConfig} :
    (∃ s, q.stream schema config = .ok s) ↔
      SortFits schema q.sortBy ∧ ∀ raw ∈ q.filters, ∃ p, AsksFor schema raw p := by
  rw [← sortKey_succeeds_iff, ← filters_succeed_iff]
  constructor
  · rintro ⟨s, h⟩
    obtain ⟨sort, ps, hsort, hps, -⟩ := stream_eq_ok_iff.mp h
    exact ⟨⟨sort, hsort⟩, ps, hps⟩
  · rintro ⟨⟨sort, hsort⟩, ps, hps⟩
    exact ⟨_, stream_eq_ok_iff.mpr ⟨sort, ps, hsort, hps, rfl⟩⟩

theorem stream_fails_iff {config : SearchConfig} :
    q.stream schema config = .error e ↔ Reports schema q.sortBy q.filters e := by
  rw [stream_eq_error_iff, sortKey_succeeds_iff, sortKey_eq_error_iff, mapM_eq_error_iff]
  simp only [predicateOf_eq_ok_iff, predicateOf_eq_error_iff]
  constructor
  · rintro (⟨name, hname, hfails⟩ | ⟨hfits, before, raw, after, hfilters, hbefore, hraw⟩)
    · exact .sort hname hfails
    · exact .filter hfits hfilters hbefore hraw
  · intro h
    cases h with
    | sort hname hfails => exact .inl ⟨_, hname, hfails⟩
    | filter hfits hfilters hbefore hraw =>
        exact .inr ⟨hfits, _, _, _, hfilters, hbefore, hraw⟩

/-- A query is resolved as a whole or not at all. It has a stream exactly when its sort name is
absent or belongs to a field open to sorting, and each of its filters asks for a predicate. The
stream then holds the predicates the filters ask for, each on its own, in order. If there is no
stream, the sort name is reported, or else the first filter that fails. Page, page size, direction
and settings have no part in it. -/
theorem stream_all_or_nothing (schema : Schema) (q : FilterQuery) (config : SearchConfig) :
    ((∃ s, q.stream schema config = .ok s) ↔
      SortFits schema q.sortBy ∧ ∀ raw ∈ q.filters, ∃ p, AsksFor schema raw p) ∧
    (∀ s, q.stream schema config = .ok s → List.Forall₂ (AsksFor schema) q.filters s.predicates) ∧
    (∀ e, q.stream schema config = .error e ↔ Reports schema q.sortBy q.filters e) ∧
    ∀ (q' : FilterQuery) (config' : SearchConfig), q'.sortBy = q.sortBy → q'.filters = q.filters →
      ∀ e, q'.stream schema config' = .error e ↔ q.stream schema config = .error e := by
  refine ⟨stream_succeeds_iff, ?_, fun e => stream_fails_iff, ?_⟩
  · intro s h
    obtain ⟨sort, ps, -, hps, rfl⟩ := stream_eq_ok_iff.mp h
    exact (forall₂_of_mapM hps).imp fun raw p => predicateOf_eq_ok_iff.mp
  · intro q' config' hsort hfilters e
    rw [stream_fails_iff, stream_fails_iff, hsort, hfilters]

/-- A query with a stream, and one with two faults, of which the first is reported on every page. -/
theorem stream_all_or_nothing_two_faults :
    let age : Field := ⟨"age", "years", .numeric, true, by decide, by decide, by decide⟩
    let tags : Field := ⟨"tags", "tags", .tag, false, by decide, by decide, by decide⟩
    let schema : Schema := ⟨"people", "id", [age, tags]⟩
    let sound : FilterQuery := { sortBy := some " AGE ", filters := ["age:missing", "tags:in:a|b"] }
    let faulty : FilterQuery := { filters := ["tags:missing", "size:missing", "age:about:3"] }
    (∃ s, sound.stream schema .default = .ok s ∧
      List.Forall₂ (AsksFor schema) sound.filters s.predicates ∧
      s.predicates = [⟨age, .isMissing, .term .missing⟩,
        ⟨tags, .isIn, .anyOf [.tag .exact "a", .tag .exact "b"]⟩]) ∧
    ∀ (page : Option Nat) (config : SearchConfig),
      { faulty with page := page }.stream schema config
        = .error (.unknownField "people" "size") := by
  intro age tags schema sound faulty
  have hsound : sound.stream schema .default
      = .ok { sound.window schema .default with
          sort := some ⟨"years", .asc⟩
          predicates := [⟨age, .isMissing, .term .missing⟩,
            ⟨tags, .isIn, .anyOf [.tag .exact "a", .tag .exact "b"]⟩] } := by
    decide +kernel
  have hfaulty : faulty.stream schema .default = .error (.unknownField "people" "size") := by
    decide +kernel
  refine ⟨⟨_, hsound, (stream_all_or_nothing schema sound .default).2.1 _ hsound, rfl⟩, ?_⟩
  intro page config
  exact ((stream_all_or_nothing schema faulty .default).2.2.2 { faulty with page := page } config
    rfl rfl _).mpr hfaulty

end FilterQuery

end IndexQuery
