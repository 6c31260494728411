-- SUMMARY: Pipeline stages and the documents they are written as.
import DocQuery.Value.Literal
import DocQuery.Value.Pairs

/-!
# Stages

A pipeline is a row of stages, and each stage is written as a document with one key.
Stages that callers build hold their arguments as they were given; whether an argument
fits shows when the stage is written.
-/

namespace DocQuery

/-- A stage of a pipeline. -/
inductive Stage where
  /-- A stage of no kind, which cannot be written. -/
  | abstract
  | filter (body : Value)
  | group (key accumulators : Value)
  /-- Fields, most significant first, each with its direction. -/
  | sort (fields : List (Value × Value))
  | skip (count : Value)
  | limit (count : Value)
  | unwind (path : Value)
  | project (fields : Value)
  | addFields (fields : Value)
  | count (outputField : Value)
  /-- A document that a caller wrote. -/
  | raw (document : Value)

/-- What callers put into a pipeline: nothing, a stage, or a document. -/
inductive StageItem where
  | nothing
  | stage (s : Stage)
  | document (v : Value)

namespace Stage

/-- The name of the kind of a stage. -/
def kindName : Stage → String
  | abstract => "PipelineStage"
  | filter _ => "Match"
  | group _ _ => "Group"
  | sort _ => "Sort"
  | skip _ => "Skip"
  | limit _ => "Limit"
  | unwind _ => "Unwind"
  | project _ => "Project"
  | addFields _ => "AddFields"
  | count _ => "Count"
  | raw _ => "RawStage"

/-- A document with one key. -/
def single (key : String) (v : Value) : Value :=
  .object [(key, v)]

/-- The path of an unwind stage, with one dollar sign in front. -/
def unwindPath (path : Value) : Except Error Value :=
  match path.text? with
  | some s => .ok (if s.toList.head? = some '$' then path else .text ("$" ++ path.display))
  | none => .error .mistyped

/-- The projection that includes the named fields. -/
def including (names : List String) : Stage :=
  .project (.object (Assoc.ofPairs (names.map fun name => (name, .int 1))))

/-- The projection that includes the fields with the names that a caller wrote. -/
def includingValues (names : Value) : Except Error Stage := do
  let names ← names.members
  if Value.allCanBeKeys names then
    .ok (.project (.map (Assoc.ofPairs (names.map fun name => (name, .int 1)))))
  else .error .mistyped

/-- The document of a stage. -/
def toDocument : Stage → Except Error Value
  | abstract => .error .abstractStage
  | filter body => .ok (single "$match" body)
  | group key accumulators => do
    let es ← accumulators.toEntries
    .ok (single "$group" (.map (Assoc.merge [(.text "_id", key)] es)))
  | sort fields =>
    if Value.allCanBeKeys (fields.map (·.1)) then
      .ok (single "$sort" (.map (Assoc.ofPairs fields)))
    else .error .mistyped
  | skip n => .ok (single "$skip" n)
  | limit n => .ok (single "$limit" n)
  | unwind path => (unwindPath path).map (single "$unwind")
  | project fields => .ok (single "$project" fields)
  | addFields fields => .ok (single "$addFields" fields)
  | count outputField => .ok (single "$count" outputField)
  | raw document => .ok document

/-- The documents of stages, in order. -/
def toPipeline (stages : List Stage) : Except Error (List Value) :=
  stages.mapM toDocument

end Stage

namespace StageItem

/-- The document of an item, if it has one. -/
def toDocument? : StageItem → Except Error (Option Value)
  | nothing => .ok none
  | stage s => s.toDocument.map some
  | document v => v.toEntries.map fun es => some (.map es)

/-- The documents of the items, in order. -/
def toPipeline (items : List StageItem) : Except Error (List Value) := do
  let docs ← items.mapM toDocument?
  .ok (docs.filterMap id)

/-- The stage of an item among other stages: a document is passed through. -/
def toStage : StageItem → Except Error Stage
  | nothing => .error .mistyped
  | stage s => .ok s
  | document v => v.toEntries.map fun es => .raw (.map es)

end StageItem

end DocQuery
