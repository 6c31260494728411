-- SUMMARY: The pipeline of a grouping, and the result that its rows stand for.
import DocQuery.Group.Plan
import DocQuery.Group.Result
import DocQuery.Pipeline
import DocQuery.Wire.Tagged

/-!
# Grouping pipelines

A grouping starts from the filter of its query, may unwind a list and sort the rows,
then groups them and accumulates one number, and at last renames the parts of a group:
its id becomes `key`, the number `count`, and the collected rows `members`.

The rows that come back are read with the same plan: pointer columns become pointers,
and keys of date intervals keep the components of their unit.
-/

namespace DocQuery.GroupPlan

/-! ## Expressions -/

/-- The wire spelling of the field. -/
def wireField (plan : GroupPlan) : String :=
  FieldName.wire (.text plan.field)

/-- The date that an interval is taken from, with its time zone where one is given. -/
def dateOperand (timezone : Option String) (field : String) : Value :=
  match timezone with
  | none | some "" => Pipeline.reference field
  | some zone => .object [("date", Pipeline.reference field), ("timezone", .text zone)]

/-- The store's operator for a component of the key of an interval. The year of a week is
    the year that the week belongs to. -/
def partOperator (unit part : DateUnit) : String :=
  match unit, part with
  | .week, .year => "$isoWeekYear"
  | _, part => part.storeOperator

/-- The key of an interval: an expression for each component. -/
def intervalKey (p : DatePlan) (field : String) : Value :=
  .object (p.unit.keyParts.map fun part =>
    (part.name, Stage.single (partOperator p.unit part) (dateOperand p.timezone field)))

/-- The expression by which rows are grouped. -/
def keyExpression (plan : GroupPlan) : Value :=
  match plan with
  | byField p => Pipeline.columnReference p.pointer plan.wireField
  | byDate p => intervalKey p plan.wireField

/-- The expression that accumulates a field over a group. Rows are counted without a
    field. -/
def accumulation (a : Accumulator) (field : Value) : Except Error Value :=
  match a with
  | .count => .ok (Stage.single a.storeOperator (.int 1))
  | _ =>
    if field.isGiven then
      .ok (Stage.single a.storeOperator (Pipeline.reference (FieldName.wire field)))
    else .error (.argument (.fieldNeeded a))

/-! ## Stages -/

/-- The stage that makes a row of each item of a list. -/
def unwindStage? : GroupPlan → Option Stage
  | byField p =>
    if p.flattens then some (.unwind (.text (byField p).wireField)) else none
  | byDate _ => none

/-- The stage that sorts the rows before they are collected: by the orderings of the plan,
    or else by those of the query. -/
def sortStage? (plan : GroupPlan) (queryOrders : List Order) : Option Stage :=
  if plan.rowOrder.isWanted then
    Pipeline.sortStage? (if plan.rowOrder.orders.isEmpty then queryOrders else plan.rowOrder.orders)
  else none

/-- The stage that groups the rows. -/
def groupStage (plan : GroupPlan) (accumulated : Value) : Stage :=
  let collected :=
    if plan.collectsRows then [("members", Stage.single "$push" (.text "$$ROOT"))] else []
  .group plan.keyExpression (.object (("count", accumulated) :: collected))

/-- The stage that renames the parts of a group. -/
def renameStage (plan : GroupPlan) : Stage :=
  let collected := if plan.collectsRows then [("members", Value.int 1)] else []
  .project (.object
    ([("_id", .int 0), ("key", .text "$_id"), ("count", .int 1)] ++ collected))

/-- The stages of a grouping over the rows of a filter. -/
def stages (plan : GroupPlan) (filter : Except Error (Option Stage)) (queryOrders : List Order)
    (a : Accumulator) (field : Value) : Except Error (List Stage) := do
  let accumulated ← accumulation a field
  let first ← filter
  .ok ([first, plan.unwindStage?, plan.sortStage? queryOrders].filterMap id
    ++ [plan.groupStage accumulated, plan.renameStage])

/-! ## Rows -/

/-- The key of a group as it came back, read. -/
def decodeKey (plan : GroupPlan) (key : Value) : Except Error Value :=
  match plan, key with
  | byField _, .null => .ok .null
  | byField p, key =>
    if p.pointer then (Pointer.ofValue? key).map fun found => found.elim key .pointer
    else .ok key
  | byDate p, .map es =>
    .ok (.object (p.unit.keyParts.map fun part => (part.name, Value.getD es part.name)))
  | byDate _, key => .ok key

/-- The pointer to a collected row, when the row has an id. -/
def rowPointer? (className row : Value) : Except Error (Option Value) :=
  match row with
  | .map es =>
    let objectId := Value.getD es "objectId"
    let id := if objectId.isGiven then objectId else Value.getD es "_id"
    match id with
    | .null => .ok none
    | id => (Pointer.ofArgs [("class_name", className), ("object_id", id.shownText)]).map
        fun p => some (.pointer p)
  | _ => .ok none

/-- The collected rows of a group as they came back, read. -/
def decodeMembers (plan : GroupPlan) (className members : Value) : Except Error Value :=
  match plan with
  | byField _ =>
    if plan.collectsRows then members.givenMembers.map .tuple else .ok .null
  | byDate p => do
    let rows ← members.givenMembers
    if p.asPointers then
      (rows.mapM (rowPointer? className)).map fun ps => .tuple (ps.filterMap id)
    else .ok (.tuple rows)

/-- The group that a row stands for. -/
def decodeRow (plan : GroupPlan) (className row : Value) : Except Error Group :=
  match row with
  | .map es => do
    let key ← plan.decodeKey (Value.getD es "key")
    let members ← plan.decodeMembers className (Value.getD es "members")
    .ok ⟨key, Value.getD es "count", members⟩
  | _ => .error .mistyped

/-- The result that the rows stand for, over the rows of a class. -/
def decode (plan : GroupPlan) (className rows : Value) : Except Error GroupResult := do
  let groups ← (← rows.members).mapM (plan.decodeRow className)
  GroupResult.ofGroups groups (some plan.labelling.label)

end DocQuery.GroupPlan
