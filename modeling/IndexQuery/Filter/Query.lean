import IndexQuery.Filter.Condition
import IndexQuery.Stream
set_option autoImplicit false

/-! # Filter queries

A `FilterQuery` is a whole search in textual form: a page, a sort key and a list of filters.
`FilterQuery.stream` resolves it against a schema, the sort key first and then the filters in
order; the first thing that is wrong is reported. -/

namespace IndexQuery

/-- A search in textual form. -/
structure FilterQuery where
  /-- the number of the page, from one -/
  page : Option Nat := none
  pageSize : Option Nat := none
  sortBy : Option String := none
  sortOrder : Option SortOrder := none
  filters : List String := []
deriving DecidableEq

namespace FilterQuery

/-- The stream with a sort key. The name is compared without the blanks around it and without
regard to case. -/
def sorted (s : SearchStream) (name : String) (order : SortOrder) :
    Except QueryError SearchStream :=
  match s.schema.fields.find? fun f =>
      Text.sameLatin f.name.toList (Text.trim name.toList) with
  | none => .error (.invalidRequest (.unknownSortField name))
  | some f => s.sortedBy f.name order

def predicateOf (schema : Schema) (raw : String) : Except QueryError Predicate := do
  let filter ← Filter.ofText raw
  let f ← schema.field filter.field
  filter.predicate f

/-- The stream of the window that is asked for, without sort key and predicates. -/
def window (q : FilterQuery) (schema : Schema) (config : SearchConfig) : SearchStream :=
  let size := config.clampPageSize q.pageSize
  let page := max (q.page.getD 1) 1
  { schema := schema, offset := (Page.numbered page size).offset, limit := some size }

/-- The stream of a query. -/
def stream (q : FilterQuery) (schema : Schema) (config : SearchConfig) :
    Except QueryError SearchStream := do
  let start := q.window schema config
  let ordered ← match q.sortBy with
    | none => .ok start
    | some name => sorted start name (q.sortOrder.getD .asc)
  q.filters.foldlM (fun s raw => (predicateOf schema raw).map s.filter) ordered

/-! ## As data -/

def keys : List String := ["page", "page_size", "sort_by", "sort_order", "filter"]

/-- A direction in JSON data. -/
def orderOf? (d : Datum) : Option SortOrder := (d.word? .json).bind SortOrder.ofWord?

/-- The query in a JSON record. In a list every value but the filters must be given. -/
def ofDatum? (d : Datum) : Option FilterQuery := do
  let entries ← d.entries? .json keys
  if d.list?.any fun items => items.length < 4 then none
  else do
    let page ← Datum.withDefault? entries "page" (Datum.nullable? Datum.nat64?) none
    let size ← Datum.withDefault? entries "page_size" (Datum.nullable? Datum.nat64?) none
    let sortBy ← Datum.withDefault? entries "sort_by" (Datum.nullable? Datum.text?) none
    let order ← Datum.withDefault? entries "sort_order" (Datum.nullable? orderOf?) none
    let filters ← Datum.withDefault? entries "filter" (Datum.listOf? Datum.text?) []
    some ⟨page, size, sortBy, order, filters⟩

end FilterQuery

end IndexQuery
