import IndexQuery.Filter.Query
import IndexQuery.Proofs.Encoding.Sources
set_option autoImplicit false

/-! # How a textual query becomes a stream

Window, sort key and predicates of a query are resolved apart from each other: the window comes from
page and page size and never fails, the sort key from the schema, and every filter gives one
predicate, as it would on its own. `stream_eq` puts the three together in the order in which
failures are reported, and `stream_eq_ok_iff` says when there is a stream and what it holds. -/

namespace IndexQuery

namespace SearchStream

/-- Sorting looks at the schema only, and changes the sort key only. -/
theorem sortedBy_eq_map (s : SearchStream) (name : String) (order : SortOrder) :
    s.sortedBy name order
      = (sortedBy { schema := s.schema } name order).map fun t => { s with sort := t.sort } := by
  unfold sortedBy
  cases s.schema.field name with
  | error e => rfl
  | ok f => cases hf : f.sortable <;> simp [Except.bind, Except.map, hf]

end SearchStream

namespace FilterQuery

/-- The sort key a query asks for. -/
def sortKey (q : FilterQuery) (schema : Schema) : Except QueryError (Option SearchSort) :=
  match q.sortBy with
  | none => .ok none
  | some name => (sorted { schema := schema } name (q.sortOrder.getD .asc)).map (·.sort)

theorem sorted_eq_map (s : SearchStream) (name : String) (order : SortOrder) :
    sorted s name order
      = (sorted { schema := s.schema } name order).map fun t => { s with sort := t.sort } := by
  unfold sorted
  cases s.schema.fields.find? fun f => Text.sameLatin f.name.toList (Text.trim name.toList) with
  | none => rfl
  | some f => exact s.sortedBy_eq_map f.name order

/-- Filters are appended one by one; the first that gives no predicate decides. -/
theorem foldlM_filter (predicate : String → Except QueryError Predicate) (raws : List String)
    (s : SearchStream) :
    raws.foldlM (fun s raw => (predicate raw).map s.filter) s
      = (raws.mapM predicate).map fun ps => { s with predicates := s.predicates ++ ps } := by
  induction raws generalizing s with
  | nil =>
      rw [List.foldlM_nil, List.mapM_nil]
      show Except.ok s = .ok { s with predicates := s.predicates ++ [] }
      rw [List.append_nil]
  | cons raw raws ih =>
      rw [List.foldlM_cons, List.mapM_cons]
      cases predicate raw with
      | error e => rfl
      | ok p =>
          show raws.foldlM _ (s.filter p) = _
          rw [ih]
          cases raws.mapM predicate with
          | error e => rfl
          | ok ps =>
              show Except.ok { s with predicates := (s.predicates ++ [p]) ++ ps } = _
              rw [List.append_assoc]
              rfl

/-- The stream of a query: its window with the sort key and the predicates, each resolved without
the others. The sort key fails before the filters do. -/
theorem stream_eq (q : FilterQuery) (schema : Schema) (config : SearchConfig) :
    q.stream schema config = (q.sortKey schema).bind fun sort =>
      (q.filters.mapM (predicateOf schema)).map fun ps =>
        { q.window schema config with sort := sort, predicates := ps } := by
  unfold stream sortKey
  cases q.sortBy with
  | none => exact foldlM_filter _ _ _
  | some name =>
      show (sorted (q.window schema config) name _).bind _
        = ((sorted { schema := schema } name _).map _).bind _
      rw [sorted_eq_map, show (q.window schema config).schema = schema from rfl]
      cases sorted { schema := schema } name (q.sortOrder.getD .asc) with
      | error e => rfl
      | ok t => exact foldlM_filter _ _ _

theorem stream_eq_ok_iff {q : FilterQuery} {schema : Schema} {config : SearchConfig}
    {s : SearchStream} :
    q.stream schema config = .ok s ↔
      ∃ sort ps, q.sortKey schema = .ok sort ∧ q.filters.mapM (predicateOf schema) = .ok ps ∧
        s = { q.window schema config with sort := sort, predicates := ps } := by
  rw [stream_eq]
  constructor
  · intro h
    obtain ⟨sort, hsort, hrest⟩ := bind_eq_ok h
    obtain ⟨ps, hps, rfl⟩ := map_eq_ok hrest
    exact ⟨sort, ps, hsort, hps, rfl⟩
  · rintro ⟨sort, ps, hsort, hps, rfl⟩
    rw [hsort, hps]
    rfl

/-- A query fails with its sort key, or else with its filters. -/
theorem stream_eq_error_iff {q : FilterQuery} {schema : Schema} {config : SearchConfig}
    {e : QueryError} :
    q.stream schema config = .error e ↔ q.sortKey schema = .error e ∨
      (∃ sort, q.sortKey schema = .ok sort) ∧ q.filters.mapM (predicateOf schema) = .error e := by
  rw [stream_eq]
  cases q.sortKey schema with
  | error e' => simp [Except.bind]
  | ok sort => cases q.filters.mapM (predicateOf schema) <;> simp [Except.bind, Except.map]

end FilterQuery

end IndexQuery
