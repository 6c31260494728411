-- SUMMARY: Running queries through a gateway: rows, counts, accumulated values and groups.
import DocQuery.Gateway.Basic
import DocQuery.Group.Pipeline
import DocQuery.Query.Combined
import DocQuery.Query.Distinct
import DocQuery.Value.Whole

/-!
# Running queries

A query is run by sending one pipeline through a gateway and reading the rows that come
back. When the pipeline cannot be made, nothing is sent.
-/

namespace DocQuery

/-- The run with its outcome read further. -/
def Run.read (r : Run σ α) (f : α → Except Error β) : Run σ β :=
  r.mapOutcome fun outcome => outcome.bind f

namespace Rows

/-- The value of a field of a row. -/
def field (name : String) (row : Value) : Except Error Value :=
  match row with
  | .map es => .ok (Value.getD es name)
  | _ => .error .mistyped

/-- The first row, null when there is none. -/
def first (rows : List Value) : Except Error Value :=
  .ok (rows.head?.getD .null)

/-- The number of rows, from the row of a counting pipeline. No row stands for zero. -/
def count : List Value → Except Error Value
  | [] => .ok (.int 0)
  | row :: _ => do
    let v ← field "count" row
    if v.isGiven then v.whole.map .int else .ok (.int 0)

/-- The number of distinct values, from the row of a counting pipeline. No row stands for
    zero. -/
def distinctCount : List Value → Except Error Value
  | .map es :: _ =>
    match Value.getD es "distinctCount" with
    | .null => .ok (.int 0)
    | v => v.whole.map .int
  | _ => .ok (.int 0)

/-- The accumulated value. The sum of no rows is zero. -/
def accumulated (a : Accumulator) (rows : List Value) : Except Error Value := do
  let v ← match rows with
    | [] => .ok .null
    | row :: _ => field "value" row
  match a, v with
  | .sum, .null => .ok (.int 0)
  | _, v => .ok v

end Rows

namespace Draft

/-- Sends a pipeline, if it could be made. -/
def send (d : Draft) (g : Gateway) (pipeline : Except Error (List Value)) (mode : Mode) :
    Run Gateway (List Value) :=
  match pipeline with
  | .ok docs => g.run d.query.className (.list docs) mode
  | .error e => .still g (.error e)

/-- Sends a pipeline that a caller wrote. It must have a size. -/
def execute (d : Draft) (g : Gateway) (pipeline mode : Value) : Run Gateway (List Value) :=
  match pipeline.size? with
  | some _ => g.execute d.query.className pipeline mode
  | none => .still g (.error .mistyped)

/-- The rows. -/
def results (d : Draft) (g : Gateway) (mode : Mode) : Run Gateway (List Value) :=
  d.send g d.pipeline mode

/-- The first row, null when there is none. A filter that holds itself is refused before
    anything else. -/
def first (d : Draft) (g : Gateway) (mode : Mode) : Run Gateway Value :=
  match d.filter with
  | .ok _ => ((d.withLimit (.int 1)).results g mode).read Rows.first
  | .error e => .still g (.error e)

/-- The number of rows. -/
def count (d : Draft) (g : Gateway) (mode : Mode) : Run Gateway Value :=
  (d.send g d.countPipeline mode).read Rows.count

/-- The number of distinct values. -/
def distinctCount (d : Draft) (g : Gateway) (p : DistinctPlan) (mode : Mode) :
    Run Gateway Value :=
  (d.send g (p.countPipeline d) mode).read Rows.distinctCount

/-- The distinct values. -/
def distinct (d : Draft) (g : Gateway) (p : DistinctPlan) (mode : Mode) :
    Run Gateway (List Value) :=
  (d.send g (p.pipeline d) mode).read p.decode

/-- The accumulated value of a field. -/
def accumulate (d : Draft) (g : Gateway) (a : Accumulator) (field : Value) (mode : Mode) :
    Run Gateway Value :=
  (d.send g (d.valuePipeline a field) mode).read (Rows.accumulated a)

/-- The rows of a caller's stages. -/
def aggregate (d : Draft) (g : Gateway) (items : List StageItem) (mode : Mode) :
    Run Gateway (List Value) :=
  d.send g (d.customPipeline items) mode

/-! ## Groups -/

/-- The stages of a grouping. -/
def groupStages (d : Draft) (plan : GroupPlan) (a : Accumulator) (field : Value) :
    Except Error (List Stage) :=
  plan.stages d.filterStage? d.query.orders a field

/-- The pipeline of a grouping. -/
def groupPipeline (d : Draft) (plan : GroupPlan) (a : Accumulator) (field : Value) :
    Except Error (List Value) := do
  Stage.toPipeline (← d.groupStages plan a field)

/-- The result that the rows of a grouping stand for. -/
def decodeGroups (d : Draft) (plan : GroupPlan) (rows : Value) : Except Error GroupResult :=
  plan.decode d.query.className rows

/-- The groups. -/
def group (d : Draft) (g : Gateway) (plan : GroupPlan) (a : Accumulator) (field : Value) :
    Run Gateway GroupResult :=
  (d.send g (d.groupPipeline plan a field) plan.mode).read fun rows =>
    d.decodeGroups plan (.list rows)

end Draft

end DocQuery
