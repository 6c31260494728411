-- SUMMARY: The distinct values of a field: pipelines, and how the rows are read.
import DocQuery.Query.Basic
import DocQuery.Wire.Tagged

/-!
# Distinct values

The distinct values of a field are found by grouping the rows by it. The field may be
read from its pointer column; then its values are compact pointers. If all values are
pointers they are shown as pointers when the caller wants them so, by their ids when
they have one class in common, and otherwise in compact form.
-/

namespace DocQuery

/-- Which values to find. -/
structure DistinctPlan where
  /-- The field, in wire spelling. -/
  field : String
  /-- The field is read from its pointer column. -/
  pointer : Bool
  /-- Pointers are shown as such. -/
  asPointers : Bool := false

namespace DistinctPlan

/-- The stage that leaves one row for each value. -/
def groupStage (p : DistinctPlan) : Stage :=
  .group (Pipeline.columnReference p.pointer p.field) (.map [])

/-- The pipeline that counts the values. -/
def countPipeline (p : DistinctPlan) (d : Draft) : Except Error (List Value) := do
  let first ← d.filterStage?
  Stage.toPipeline (first.toList ++ [p.groupStage, .count (.text "distinctCount")])

/-- The pipeline that lists the values. -/
def pipeline (p : DistinctPlan) (d : Draft) : Except Error (List Value) := do
  let first ← d.filterStage?
  Stage.toPipeline (first.toList
    ++ [p.groupStage, .project (.object [("_id", .int 0), ("value", .text "$_id")])])

/-! ## Rows -/

/-- The values of the rows, without null. Only mappings are rows. -/
def valuesOf (rows : List Value) : List Value :=
  rows.filterMap fun row =>
    match row with
    | .map es =>
      match Value.getD es "value" with
      | .null => none
      | v => some v
    | _ => none

/-- The pointer that a value stands for. Texts are pointers only in a pointer column. -/
def asPointer? (p : DistinctPlan) (v : Value) : Except Error (Option Pointer) :=
  if v.isText && !p.pointer then .ok none else Pointer.ofValue? v

/-- All of the options, if none is missing. -/
def allSome : List (Option α) → Option (List α)
  | [] => some []
  | none :: _ => none
  | some a :: rest => (allSome rest).map (a :: ·)

/-- How pointers are shown. -/
def shown (p : DistinctPlan) (pointers : List Pointer) : List Value :=
  match pointers with
  | [] => []
  | first :: rest =>
    if p.asPointers then pointers.map .pointer
    else if rest.all fun q => q.className == first.className then
      pointers.map fun q => .text q.objectId
    else pointers.map fun q => .text q.compact

/-- The values that the rows stand for. -/
def decode (p : DistinctPlan) (rows : List Value) : Except Error (List Value) := do
  let values := valuesOf rows
  let pointers ← values.mapM p.asPointer?
  .ok ((allSome pointers).elim values p.shown)

end DistinctPlan

end DocQuery
