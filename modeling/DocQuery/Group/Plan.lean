-- SUMMARY: How rows are grouped: by a field, or by the interval that a date falls into.
import DocQuery.Group.Label
import DocQuery.Order

/-!
# Plans

A plan says how the rows of a query are grouped. Rows are grouped by the value of a
field, perhaps of each item of a list or of a pointer column; or by the calendar
interval of a date field. Both kinds may collect the rows of a group in an order, and
may be run at the database.
-/

namespace DocQuery

/-! ## The order of collected rows -/

/-- The order in which the rows of a group are collected. -/
inductive RowOrder where
  /-- The order of the query, or none in particular. -/
  | ofQuery (wanted : Bool)
  /-- Given orderings. -/
  | given (orders : List Order)

namespace RowOrder

/-- The rows are collected in an order. -/
def isWanted : RowOrder → Bool
  | ofQuery wanted => wanted
  | given orders => !orders.isEmpty

/-- The orderings that were given. -/
def orders : RowOrder → List Order
  | ofQuery _ => []
  | given orders => orders

/-- The path to a field, or to the branch of a choice there. -/
def branch (name : String) (rest : List PathStep) : List PathStep :=
  .field name :: rest

/-- The items of a value that may stand for a list. -/
def listItems? (v : Value) : Option (List Value) :=
  if v.isMap || v.isText then none
  else match v with
    | .bytes _ => none
    | v => v.members?

/-- What keeps a value from being a list of orderings. Only lists and tuples hold
    orderings, so every item is refused. -/
def listRefusals (name : String) (v : Value) : List Refusal :=
  let path := branch name [.field "list[Order]"]
  match listItems? v with
  | none => [⟨path, .noList⟩]
  | some items => items.zipIdx.map fun (_, i) => ⟨path ++ [.index i], .noOrder⟩

/-- The orderings of a list or a tuple. -/
def ofSequence (name : String) (items : List Value) : Checked RowOrder :=
  match Order.ofValues items with
  | .ok orders => .ok (given orders)
  | .error (.argument fault) => Record.refuse name (.rule fault)
  | .error _ => Record.refuse name .noList

/-- An order: a list of orderings, or whether the order of the query is wanted. An empty
    set is a list without orderings. -/
def check (name : String) (v : Value) : Checked RowOrder :=
  match v.sequence? with
  | some items => ofSequence name items
  | none =>
    match Record.truthOf v with
    | .ok wanted => .ok (ofQuery wanted)
    | .error fault =>
      match listRefusals name v with
      | [] => .ok (given [])
      | refusals => .error (⟨branch name [.field "bool"], fault⟩ :: refusals)

end RowOrder

/-! ## Plans -/

/-- Grouping by the values of a field. -/
structure FieldPlan where
  field : String
  /-- Every item of a list counts as a row of its own. -/
  flattens : Bool
  rowOrder : RowOrder
  /-- The field is read from its pointer column. -/
  pointer : Bool
  /-- The pipeline may run at the database. -/
  direct : Bool

/-- Grouping by the interval of a date field. -/
structure DatePlan where
  field : String
  unit : DateUnit
  /-- Rows are shown as pointers. -/
  asPointers : Bool
  rowOrder : RowOrder
  /-- The name or the offset of a time zone, UTC when none is given. -/
  timezone : Option String
  /-- The pipeline may run at the database. -/
  direct : Bool

/-- The plan with given fields. -/
def FieldPlan.ofArgs (args : Record.Args) : Except Error FieldPlan :=
  let flag (name : String) := Record.field args name (some false) Record.truth
  let checked :=
    (Record.field args "field" none Record.fullText).and <|
    (flag "flatten_arrays").and <|
    (Record.field args "sortable" (some (.ofQuery false)) RowOrder.check).and <|
    (flag "pointer").and <|
    (flag "mongo_direct").and <|
    Record.noOthers args ["field", "flatten_arrays", "sortable", "pointer", "mongo_direct"]
  checked.toExcept.map fun (field, flattens, rowOrder, pointer, direct, _) =>
    ⟨field, flattens, rowOrder, pointer, direct⟩

/-- The plan with given fields. -/
def DatePlan.ofArgs (args : Record.Args) : Except Error DatePlan :=
  let flag (name : String) := Record.field args name (some false) Record.truth
  let checked :=
    (Record.field args "field" none Record.fullText).and <|
    (Record.field args "unit" (some .day) (Record.word DateUnit)).and <|
    (flag "return_pointers").and <|
    (Record.field args "sortable" (some (.ofQuery false)) RowOrder.check).and <|
    (Record.field args "timezone" (some none) Record.optionalText).and <|
    (flag "mongo_direct").and <|
    Record.noOthers args
      ["field", "unit", "return_pointers", "sortable", "timezone", "mongo_direct"]
  checked.toExcept.map fun (field, unit, asPointers, rowOrder, timezone, direct, _) =>
    ⟨field, unit, asPointers, rowOrder, timezone, direct⟩

/-- A plan of either kind. -/
inductive GroupPlan where
  | byField (p : FieldPlan)
  | byDate (p : DatePlan)

namespace GroupPlan

/-- The field by which rows are grouped, as the caller wrote it. -/
def field : GroupPlan → String
  | byField p => p.field
  | byDate p => p.field

/-- The order of collected rows. -/
def rowOrder : GroupPlan → RowOrder
  | byField p => p.rowOrder
  | byDate p => p.rowOrder

/-- Where the pipeline runs. -/
def mode : GroupPlan → Mode
  | byField p => Mode.ofDirect p.direct
  | byDate p => Mode.ofDirect p.direct

/-- The rows of a group are collected: in date groups always, in others when an order is
    wanted. -/
def collectsRows : GroupPlan → Bool
  | byField p => p.rowOrder.isWanted
  | byDate _ => true

/-- How the groups are labelled. -/
def labelling : GroupPlan → Labelling
  | byField _ => .byKey
  | byDate p => .byInterval p.unit

/-- The name of a kind of grouping. -/
def kindName (plan : GroupPlan) : String :=
  (if plan.rowOrder.isWanted then "Sortable" else "") ++ (match plan with
    | byField _ => "GroupBy"
    | byDate _ => "GroupByDate")

end GroupPlan

end DocQuery
