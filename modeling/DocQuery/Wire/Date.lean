-- SUMMARY: Dates in every accepted shape, and their wire form.
import DocQuery.Wire.Tagged
import DocQuery.Calendar.IsoText
import DocQuery.Calendar.Written
import DocQuery.Text.Blank

/-!
# Dates on the wire

A date may be given as a tagged object, a point in time, a day, an ISO text or the
seconds since 1970. All of them are read as one UTC reading, and written in one form:
ISO 8601 in UTC with milliseconds.
-/

namespace DocQuery

/-- A failed conversion outside of any constraint. -/
def Error.unfit (fault : ConversionFault) : Error :=
  .conversion fault .null .null

namespace DateTime

/-- The same instant in UTC. -/
def toUtc (t : DateTime) : Except Error DateTime :=
  match t.toUtc? with
  | some u => .ok u
  | none => .error .overflow

/-- An ISO text, with blanks around it and a final `Z` for UTC. Errors show `given`. -/
def ofIso (given : Value) (cs : List Char) : Except Error DateTime :=
  let cs := Text.trim Text.isBlank cs
  let cs := match cs.getLast? with
    | some c => if c = 'Z' || c = 'z' then cs.dropLast ++ "+00:00".toList else cs
    | none => cs
  match IsoText.read? cs with
  | some t => t.toUtc
  | none => .error (.unfit (.notIsoDate given))

/-- The UTC reading that a value stands for. -/
def ofValue (v : Value) : Except Error DateTime :=
  match v with
  | .map es =>
    let iso := Value.field es "iso"
    match v.isTagged "Date", iso.points? with
    | true, some ps => ofIso iso (ps.map (·.shown))
    | _, _ => .error ((Error.unfit (.notTaggedDate v)).showing v)
  | .datetime t => t.toUtc
  | .date d => .ok (midnight d)
  | .text s => ofIso v s.toList
  | .brokenText t => ofIso v (t.points.map (·.shown))
  | .tagKey k => ofIso v k.text.toList
  | .int n =>
    match ofEpoch? n with
    | some t => .ok t
    | none => .error ((Error.unfit (.epochOutOfRange n)).showing v)
  | _ => .error (.unfit (.noDate v.kindName))

end DateTime

namespace Wire

/-- The ISO text of a date in any shape. -/
def isoText (v : Value) : Except Error String :=
  (DateTime.ofValue v).map DateTime.wireText

/-- A tagged date with a given text. -/
def taggedDate (iso : Value) : Value :=
  .object [("__type", .text "Date"), ("iso", iso)]

/-- The tagged object of a date in any shape. -/
def date (v : Value) : Except Error Value :=
  (isoText v).map fun s => taggedDate (.text s)

mutual

/-- The wire form of an application value: pointers and dates become tagged objects, keys
    become texts, and tuples lists. -/
def ofValue : Value → Except Error Value
  | .pointer p => .ok p.toWire
  | .datetime t => date (.datetime t)
  | .date d => date (.date d)
  | .map es => (ofEntries es).map fun fields => .object (Assoc.ofPairs fields)
  | .list xs => (ofItems xs).map .list
  | .tuple xs => (ofItems xs).map .list
  | v => .ok v

/-- The wire forms of the items. -/
def ofItems : List Value → Except Error (List Value)
  | [] => .ok []
  | x :: xs => do
    let y ← ofValue x
    let ys ← ofItems xs
    .ok (y :: ys)

/-- The wire forms of the entry values, each with the text of its key. -/
def ofEntries : List (Value × Value) → Except Error (List (String × Value))
  | [] => .ok []
  | (k, v) :: es => do
    let w ← ofValue v
    let ws ← ofEntries es
    .ok ((k.keyText, w) :: ws)

end

end Wire

end DocQuery
