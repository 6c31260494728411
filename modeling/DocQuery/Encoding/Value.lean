-- SUMMARY: Encoding of wire values for the server and for the store.
import DocQuery.Wire.Date
import DocQuery.FieldName

/-!
# Encoded values

A compiled pipeline holds wire values. Before it is sent, tagged objects are encoded for
their target. Pointers become compact texts for both. Dates become ISO texts for the
server, and UTC readings for the store.
-/

namespace DocQuery

/-- Whom a pipeline is encoded for. -/
inductive Target where
  /-- The aggregate endpoint of the server. -/
  | remote
  /-- The database behind it. -/
  | storage
  deriving DecidableEq, Repr

namespace Target

/-- The target with a name. -/
def read (v : Value) : Except Error Target :=
  match v.text? with
  | some "remote" => .ok remote
  | some "storage" => .ok storage
  | _ => .error ((Error.argument (.unknownTarget v)).showing v)

end Target

namespace Encoding

/-- A date in any shape, for a target. -/
def date (target : Target) (v : Value) : Except Error Value :=
  match target with
  | .remote => (Wire.isoText v).map .text
  | .storage => (DateTime.ofValue v).map .datetime

/-- The compact text of a pointer in any shape. -/
def pointer (v : Value) : Except Error Value := do
  match ← Pointer.ofValue? v with
  | some p => .ok (.text p.compact)
  | none => .error .mistyped

mutual

/-- A value for a target: tagged objects in their target form, everything else walked
    through. -/
def value (target : Target) : Value → Except Error Value
  | .pointer p => .ok (.text p.compact)
  | .date d => date target (.date d)
  | .datetime t => date target (.datetime t)
  | .map es =>
    if (Value.map es).isPointer then pointer (.map es)
    else if (Value.map es).isDate then date target (.map es)
    else (entries target es).map fun fields => .object (Assoc.ofPairs fields)
  | .list xs => (items target xs).map .list
  | .tuple xs => (items target xs).map .list
  | v => .ok v

/-- The items for a target. -/
def items (target : Target) : List Value → Except Error (List Value)
  | [] => .ok []
  | x :: xs => do
    let y ← value target x
    let ys ← items target xs
    .ok (y :: ys)

/-- The entry values for a target, each with the text of its key. -/
def entries (target : Target) : List (Value × Value) → Except Error (List (String × Value))
  | [] => .ok []
  | (k, v) :: es => do
    let w ← value target v
    let ws ← entries target es
    .ok ((k.keyText, w) :: ws)

end

end Encoding

end DocQuery
