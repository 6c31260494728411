-- SUMMARY: Queries: a class, a filter and modifiers, and the pipelines that they stand for.
import DocQuery.Filter.Store
import DocQuery.Pipeline

/-!
# Queries

A query asks for the rows of one class that pass a filter, sorted, cut to a page and
reduced to some fields. Its filter is a cell of a store, because callers may put filters
into several queries. A draft is a query together with the store that its filter lives
in; everything that a query stands for is computed from its draft.
-/

namespace DocQuery

/-- A query. -/
structure Query where
  className : Value
  filter : FilterId
  orders : List Order := []
  skip : Value := .int 0
  limit : Value := .null
  keys : List Value := []

/-- A query and the store that its filter lives in. -/
structure Draft where
  filters : FilterStore
  query : Query

namespace Draft

/-- A new query for a class, which must have a name. -/
def make (filters : FilterStore) (className : Value) : Except Error Draft :=
  if className.isGiven then
    let (id, filters) := filters.push .empty
    .ok ⟨filters, { className := className, filter := id }⟩
  else .error (.argument .noClassName)

/-- The filter, with all references followed. -/
def filter (d : Draft) : Except Error Filter :=
  d.filters.resolve d.query.filter

/-- The stage of the filter, if it has conditions. -/
def filterStage? (d : Draft) : Except Error (Option Stage) := do
  Pipeline.filterStage? (← d.filter)

/-- The text that shows a query in messages. -/
def literal (d : Draft) : String :=
  "<Query " ++ d.query.className.display
    ++ " constraints=" ++ toString (d.filters.get d.query.filter).constraints.length
    ++ " orders=" ++ (Value.list (d.query.orders.map .order)).literal ++ ">"

/-! ## Pipelines -/

/-- The orderings as a caller would write them. -/
def orderValue (d : Draft) : Value :=
  .list (d.query.orders.map .order)

/-- The stages of a query. -/
def stages (d : Draft) : Except Error (List Stage) :=
  Pipeline.stages d.filterStage?
    { order := d.orderValue, skip := d.query.skip, limit := d.query.limit
      keys := .list d.query.keys }

/-- The pipeline of a query. -/
def pipeline (d : Draft) : Except Error (List Value) := do
  Stage.toPipeline (← d.stages)

/-- The pipeline that counts the rows of the filter. -/
def countPipeline (d : Draft) : Except Error (List Value) :=
  Pipeline.counting d.filterStage?

/-- The pipeline that accumulates a field over the rows of the filter. -/
def valuePipeline (d : Draft) (a : Accumulator) (field : Value) : Except Error (List Value) := do
  if a = .count then
    throw (.argument .countOfField)
  let operand := Pipeline.reference (FieldName.wire field)
  let first ← d.filterStage?
  Stage.toPipeline (first.toList
    ++ [.group .null (.object [("value", Stage.single a.storeOperator operand)])])

/-- The pipeline of a caller's stages over the rows of the filter, followed by the sort and
    the page of the query. -/
def customPipeline (d : Draft) (items : List StageItem) : Except Error (List Value) := do
  let custom ← items.mapM StageItem.toStage
  let page ← Pipeline.stages (.ok none)
    { order := d.orderValue, skip := d.query.skip, limit := d.query.limit }
  let first ← d.filterStage?
  Stage.toPipeline (first.toList ++ custom ++ page)

/-- The query with another limit. -/
def withLimit (d : Draft) (limit : Value) : Draft :=
  { d with query := { d.query with limit := limit } }

end Draft

end DocQuery
