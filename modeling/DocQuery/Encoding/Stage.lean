-- SUMMARY: Encoding of stage documents and whole pipelines.
import DocQuery.Encoding.Match
import DocQuery.Value.Pairs

/-!
# Encoded pipelines

Each stage document is encoded by the kinds of its keys. For the store, names of system
fields become columns wherever a stage names a stored field: in sorts, in the flags of
projections and in references.
-/

namespace DocQuery.Encoding

/-- A reference `$field.path` for the store: its first step becomes a column. Variables,
    with two dollar signs, are left alone. -/
def reference (s : String) : String :=
  match s.toList with
  | '$' :: '$' :: _ => s
  | '$' :: path =>
    let head := String.ofList (path.takeWhile (· != '.'))
    let tail := String.ofList (path.dropWhile (· != '.'))
    "$" ++ FieldName.toStorage head ++ tail
  | _ => s

/-- A reference in a broken text for the store. A first step that is broken is no system
    field and stays. -/
def brokenReference (t : Text.BrokenText) : Value :=
  match t.points with
  | .char '$' :: .char '$' :: _ => .brokenText t
  | .char '$' :: path =>
    let head := path.takeWhile (· != .char '.')
    let column :=
      if head.any Text.CodePoint.isSurrogate then head
      else Text.CodePoint.ofText (FieldName.toStorage (Text.CodePoint.toText head))
    .ofPoints (.char '$' :: column ++ path.dropWhile (· != .char '.'))
  | _ => .brokenText t

mutual

/-- An expression for a target. -/
def expression (target : Target) : Value → Except Error Value
  | .text s => .ok (.text (match target with | .storage => reference s | .remote => s))
  | .brokenText t =>
    .ok (match target with | .storage => brokenReference t | .remote => .brokenText t)
  | .pointer p => value target (.pointer p)
  | .date d => value target (.date d)
  | .datetime t => value target (.datetime t)
  | .map es =>
    if (Value.map es).isPointer || (Value.map es).isDate then value target (.map es)
    else (expressionEntries target es).map fun fields => .object (Assoc.ofPairs fields)
  | .list xs => (expressions target xs).map .list
  | .tuple xs => (expressions target xs).map .list
  | v => .ok v

/-- The items as expressions for a target. -/
def expressions (target : Target) : List Value → Except Error (List Value)
  | [] => .ok []
  | x :: xs => do
    let y ← expression target x
    let ys ← expressions target xs
    .ok (y :: ys)

/-- The entry values as expressions for a target, each with the text of its key. -/
def expressionEntries (target : Target) :
    List (Value × Value) → Except Error (List (String × Value))
  | [] => .ok []
  | (k, v) :: es => do
    let w ← expression target v
    let ws ← expressionEntries target es
    .ok ((k.keyText, w) :: ws)

end

/-- The value is a flag that includes or excludes a stored field. -/
def isFlag (v : Value) : Bool :=
  v.isIn [.int 0, .int 1]

/-- An entry of a projection. Only flags name stored fields; computed fields keep their
    names. -/
def projectionEntry (target : Target) (k spec : Value) : Except Error (String × Value) := do
  let name := match target with
    | .storage => if isFlag spec then FieldName.toStorage k.keyText else k.keyText
    | .remote => k.keyText
  let w ← expression target spec
  .ok (name, w)

/-- The key of a sort stage. -/
def sortKey (target : Target) (k : Value) : String :=
  match target with
  | .storage => FieldName.toStorage k.keyText
  | .remote => k.keyText

/-- The entries of a value that has to be a mapping. -/
def mapping (v : Value) : Except Error (List (Value × Value)) :=
  v.entries?.elim (.error .mistyped) .ok

/-- What stands under the key of a stage document. -/
def stageBody (target : Target) (op : String) (body : Value) : Except Error Value :=
  match op with
  | "$match" => matchBody target body
  | "$sort" => (mapping body).map fun es =>
    .object (Assoc.ofPairs (es.map fun (k, v) => (sortKey target k, v)))
  | "$project" => do
    let fields ← (← mapping body).mapM fun (k, spec) => projectionEntry target k spec
    .ok (.object (Assoc.ofPairs fields))
  | "$group" | "$unwind" | "$addFields" => expression target body
  | "$count" | "$skip" | "$limit" => .ok body
  | _ => value target body

/-- A stage document for a target. -/
def stage (target : Target) (v : Value) : Except Error Value := do
  let fields ← (Value.fields (← mapping v)).mapM fun (op, body) => do
    let w ← stageBody target op body
    .ok (op, w)
  .ok (.object fields)

/-- The stage documents of a pipeline for a target. -/
def pipeline (target : Target) (v : Value) : Except Error (List Value) := do
  (← v.members).mapM (stage target)

/-- The stage documents of a pipeline for the target that a caller named. The name is
    looked at only when there is a stage. -/
def pipelineFor (target v : Value) : Except Error (List Value) := do
  (← v.members).mapM fun s => do stage (← Target.read target) s

end DocQuery.Encoding
