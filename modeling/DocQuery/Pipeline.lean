-- SUMMARY: The stages of a query: filter, sort, skip, limit and projection, in this order.
import DocQuery.Filter.Basic
import DocQuery.Stage

/-!
# Pipelines

The stages of a query stand in a fixed order: the filter, the sort, the rows to skip,
the limit and the projection. Each is there only if it has something to do.
-/

namespace DocQuery

/-- What a query asks for besides its filter, as callers wrote it. -/
structure Modifiers where
  order : Value := .null
  skip : Value := .int 0
  limit : Value := .null
  keys : Value := .null

namespace Pipeline

/-! ## References -/

/-- The reference to a field in an expression. -/
def reference (field : String) : Value :=
  .text ("$" ++ field)

/-- The reference to a field, or to the pointer column where it is kept. -/
def columnReference (pointer : Bool) (field : String) : Value :=
  reference (if pointer then FieldName.toStorageAs true field else field)

/-! ## Stages -/

/-- A number is below zero. Null counts as no number. -/
def isNegative (v : Value) : Except Error Bool :=
  match v, v.number? with
  | .null, _ => .ok false
  | _, some n => .ok (n.less (.int 0))
  | _, none => .error .mistyped

/-- The stage of a filter that has conditions. -/
def filterStage? (f : Filter) : Except Error (Option Stage) :=
  if f.isEmpty then .ok none
  else f.compile.map fun body => some (.filter (.object body))

/-- The sort stage of orderings, if there are any. -/
def sortStage? (orders : List Order) : Option Stage :=
  if orders.isEmpty then none
  else some (.sort (orders.map fun o =>
    (.text (FieldName.wire (.text o.field)), .int o.direction.sign)))

/-- The sort stage of orderings that a caller wrote. -/
def sortStageOf? (order : Value) : Except Error (Option Stage) := do
  let orders ← Order.ofValues (← order.givenMembers)
  .ok (sortStage? orders)

/-- Skip and limit are not negative. -/
def checkCounts (m : Modifiers) : Except Error Unit := do
  if ← isNegative m.skip then
    throw ((Error.compilation (.negativeSkip m.skip)).showing m.skip)
  if ← isNegative m.limit then
    throw ((Error.compilation (.negativeLimit m.limit)).showing m.limit)

/-- The stage that skips rows, when a number other than zero is given. -/
def skipStage? (skip : Value) : Option Stage :=
  if skip.isGiven then some (.skip skip) else none

/-- The stage that limits rows, when a limit is given. -/
def limitStage? : Value → Option Stage
  | .null => none
  | v => some (.limit v)

/-- The stage that keeps only the named fields, when some are named. -/
def projectStage? (keys : Value) : Except Error (Option Stage) := do
  let names := (← keys.givenMembers).map FieldName.wire
  .ok (if names.isEmpty then none else some (.including names))

/-- The stages of a query whose filter stage is `filter`. -/
def stages (filter : Except Error (Option Stage)) (m : Modifiers) :
    Except Error (List Stage) := do
  checkCounts m
  let first ← filter
  let sort ← sortStageOf? m.order
  let project ← projectStage? m.keys
  .ok ([first, sort, skipStage? m.skip, limitStage? m.limit, project].filterMap id)

/-- The pipeline that counts the rows of a filter. -/
def counting (filter : Except Error (Option Stage)) : Except Error (List Value) := do
  let first ← filter
  Stage.toPipeline (first.toList ++ [.count (.text "count")])

end Pipeline

end DocQuery
