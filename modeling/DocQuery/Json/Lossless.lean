-- SUMMARY: Values of every kind as plain JSON data, with tags, so that none is lost.
import DocQuery.Hash.Value
import DocQuery.Json.Reader
import DocQuery.Json.Writer
import DocQuery.Order
import DocQuery.Pattern.Syntax
import DocQuery.Value.Whole
import DocQuery.Wire.Tagged

/-!
# The lossless form

JSON has no dates, pointers, sets or mappings with keys of any kind. In the lossless form
such a value is a mapping with one entry: a tag that names the kind, and the parts of the
value. Null, truth values, texts, lists and small whole numbers stand for themselves.

Reading checks what a tag promises: members of sets and keys of mappings must be able to
be keys, dates must exist, patterns must follow their rules, and pointers and orderings are
checked as records.
-/

namespace DocQuery.Lossless

/-! ## Dates -/

/-- A part of a date. It must fit 32 bits. -/
def datePart (v : Value) : Except Error Int :=
  match v.number? with
  | some (.int n) => if -0x80000000 ≤ n && n < 0x80000000 then .ok n else .error .overflow
  | _ => .error .mistyped

/-- The day with given parts, if it exists. -/
def dateOf (year month day : Int) : Except Error Date :=
  let d : Date := ⟨year.toNat, month.toNat, day.toNat⟩
  if year < 1 || Calendar.maxYear < year then .error (.argument (.yearOutOfRange year))
  else if month < 1 || 12 < month then .error (.argument (.partOutOfRange "month" 1 12))
  else if day < 1 || !d.isValid then .error (.argument .dayOutOfRange)
  else .ok d

/-- A part of a clock reading, below a limit. -/
def clockPart (name : String) (limit : Nat) (n : Int) : Except Error Nat :=
  if n < 0 || limit ≤ n then .error (.argument (.partOutOfRange name 0 (limit - 1)))
  else .ok n.toNat

/-- The number of days that no duration reaches. -/
def dayLimit : Nat := 1000000000

/-- An offset in seconds, in microseconds. It is less than a day. -/
def offsetOf (v : Value) : Except Error (Option Int) :=
  match v, v.number? with
  | .null, _ => .ok none
  | _, some (.int n) =>
    if n.natAbs < 86400 then .ok (some (n * DateTime.perSecond))
    else if dayLimit ≤ (n / 86400).natAbs then .error .overflow
    else .error (.argument (.offsetOutOfRange n))
  | _, _ => .error .mistyped

/-- The day that a list of its parts stands for. -/
def readDate (parts : List Value) : Except Error Date := do
  match ← parts.mapM datePart with
  | [year, month, day] => dateOf year month day
  | _ => .error .mistyped

/-- The point in time that a list of its parts stands for. -/
def readDateTime (parts : List Value) : Except Error DateTime := do
  match parts.drop 7 with
  | [o] =>
    let offset ← offsetOf o
    match ← (parts.take 7).mapM datePart with
    | [year, month, day, hour, minute, second, micro] =>
      let date ← dateOf year month day
      let hour ← clockPart "hour" 24 hour
      let minute ← clockPart "minute" 60 minute
      let second ← clockPart "second" 60 second
      let micro ← clockPart "microsecond" DateTime.perSecond micro
      .ok ⟨date, hour, minute, second, micro, offset⟩
    | _ => .error .mistyped
  | _ => .error .mistyped

/-! ## Bytes -/

/-- The bytes that pairs of hexadecimal digits write, with gaps between them; otherwise
    the place of the first character that fits nowhere, counted from `place`. -/
def readHex (place : Nat) : List Char → Except Nat (List UInt8)
  | [] => .ok []
  | c :: cs =>
    if Text.isPlainBlank c then readHex (place + 1) cs
    else
      match Text.hexValue? c, cs with
      | none, _ => .error place
      | some _, [] => .error (place + 1)
      | some m, d :: rest =>
        match Text.hexValue? d with
        | none => .error (place + 1)
        | some n => (readHex (place + 2) rest).map ((16 * m + n).toUInt8 :: ·)

/-! ## Reading -/

/-- The value of a kind whose parts hold no other values. -/
def readPlain (tag : String) (parts : Value) : Except Error Value :=
  match tag, parts with
  | "int", v => v.whole.map .int
  | "float", .text s =>
    match Binary64.ofText? (Text.trim Text.isWhite s.toList) with
    | some x => .ok (.float x)
    | none => .error (.argument (.notAFloat parts))
  | "float", v =>
    match v.number? with
    | some (.float x) => .ok (.float x)
    | some (.int n) =>
      match Binary64.ofInt n with
      | .infinite _ => .error .overflow
      | x => .ok (.float x)
    | none => .error .mistyped
  | "key", v =>
    match v.text?.bind fun s => TagKey.all.find? (·.text == s) with
    | some k => .ok (.tagKey k)
    | none => .error (.argument (.notAWord "WireKey" v))
  | "bytes", .text s =>
    match readHex 0 s.toList with
    | .ok bs => .ok (.bytes bs)
    | .error place => .error (.argument (.notHex place))
  | "date", .list vs => (readDate vs).map .date
  | "datetime", .list vs => (readDateTime vs).map .datetime
  | "pointer", .list [className, objectId] =>
    (Pointer.ofArgs [("class_name", className), ("object_id", objectId)]).map .pointer
  | "oid", .text s =>
    if s.length = 24 && s.toList.all fun c => (Text.hexValue? c).isSome then
      .ok (.objectId ⟨s.toLower⟩)
    else .error .malformedId
  | "regex", .list [.text source, .text flags] =>
    (Regex.ofSource source (if flags == "i" then [.ignoreCase] else [])).map .regex
  | "order", .list [field, direction] =>
    (Order.ofArgs [("field", field), ("direction", direction)]).map .order
  | _, _ => .error .mistyped

mutual

/-- The value that plain data of any depth stands for. -/
def readValue : Value → Except Error Value
  | .list xs => (readItems xs).map .list
  | .map [(tag, .list xs)] =>
    match tag.keyText with
    | "tuple" => (readItems xs).map .tuple
    | "set" => (readMembers xs).map (Value.ofItems false)
    | "frozenset" => (readMembers xs).map (Value.ofItems true)
    | "map" => (readEntries xs).map fun es => .map (Assoc.ofPairs es)
    | tag => readPlain tag (.list xs)
  | .map [(tag, parts)] => readPlain tag.keyText parts
  | .map _ => .error .mistyped
  | v => .ok v

/-- The values of the items. -/
def readItems : List Value → Except Error (List Value)
  | [] => .ok []
  | x :: xs => do
    let v ← readValue x
    let vs ← readItems xs
    .ok (v :: vs)

/-- The values of the items, all of which can be keys. -/
def readMembers : List Value → Except Error (List Value)
  | [] => .ok []
  | x :: xs => do
    let v ← readValue x
    if v.canBeKey then
      let vs ← readMembers xs
      .ok (v :: vs)
    else .error .mistyped

/-- The entries that pairs stand for, with keys that can be keys. -/
def readEntries : List Value → Except Error (List (Value × Value))
  | [] => .ok []
  | .list [k, v] :: ps => do
    let key ← readValue k
    let value ← readValue v
    if key.canBeKey then
      let es ← readEntries ps
      .ok ((key, value) :: es)
    else .error .mistyped
  | .list vs :: _ => .error (.argument (.notTwo vs.length))
  | _ :: _ => .error .mistyped

end

mutual

/-- How deep values stand in each other. -/
def depth : Value → Nat
  | .list xs => depthOfItems xs + 1
  | .tuple xs => depthOfItems xs + 1
  | .set _ xs => depthOfItems xs + 1
  | .map es => depthOfEntries es + 1
  | _ => 0

/-- The greatest depth of the items. -/
def depthOfItems : List Value → Nat
  | [] => 0
  | x :: xs => max (depth x) (depthOfItems xs)

/-- The greatest depth of the entries. -/
def depthOfEntries : List (Value × Value) → Nat
  | [] => 0
  | (k, v) :: es => max (max (depth k) (depth v)) (depthOfEntries es)

end

/-- The greatest depth of a value that is read. Each value in another one takes two of
    the places that a text in JSON has for nesting. -/
def maxDepth : Nat := Json.maxDepth / 2

/-- The value that plain data stands for. -/
def read (v : Value) : Except Error Value := do
  let w ← readValue v
  if maxDepth < depth w then .error .tooDeep else .ok w

/-! ## Writing -/

/-- A value of a kind with given parts. -/
def tagged (tag : String) (parts : Value) : Value :=
  .object [(tag, parts)]

/-- Texts in a list. -/
def texts (ss : List String) : Value :=
  .list (ss.map .text)

/-- The parts of a day. -/
def dateParts (d : Date) : List Value :=
  [d.year, d.month, d.day].map fun n : Nat => .int n

/-- The parts of a point in time. -/
def dateTimeParts (t : DateTime) : List Value :=
  dateParts t.date ++ ([t.hour, t.minute, t.second, t.micro].map fun n : Nat => .int n)
    ++ [t.offset.elim .null fun o => .int (o / DateTime.perSecond)]

/-- Whole numbers up to this size stand for themselves: every reader of JSON keeps them. -/
def maxPlainInt : Nat := 0x20000000000000

/-- The members of a set in the order of their JSON texts. -/
def inTextOrder (vs : List Value) : List Value :=
  let text (v : Value) := (Json.compact v).toOption.getD ""
  vs.mergeSort fun v w => !(text w < text v)

mutual

/-- The plain data that stands for a value. -/
def write : Value → Value
  | .int n => if n.natAbs ≤ maxPlainInt then .int n else tagged "int" (.text (toString n))
  | .float x => tagged "float" (.text (x.text Decimal.plain))
  | .tagKey k => tagged "key" (.text k.text)
  | .list xs => .list (writeItems xs)
  | .tuple xs => tagged "tuple" (.list (writeItems xs))
  | .map es => tagged "map" (.list (writeEntries es))
  | .set frozen xs =>
    tagged (if frozen then "frozenset" else "set") (.list (inTextOrder (writeItems xs)))
  | .bytes bs =>
    tagged "bytes" (.text (String.ofList (bs.flatMap fun b => Text.hexPadded 2 b.toNat)))
  | .date d => tagged "date" (.list (dateParts d))
  | .datetime t => tagged "datetime" (.list (dateTimeParts t))
  | .pointer p => tagged "pointer" (texts [p.className, p.objectId])
  | .objectId o => tagged "oid" (.text o.hex)
  | .regex r => tagged "regex" (texts [r.source, if r.ignoresCase then "i" else ""])
  | .order o => tagged "order" (texts [o.field, o.direction.name])
  | v => v

/-- The plain data of the items. -/
def writeItems : List Value → List Value
  | [] => []
  | x :: xs => write x :: writeItems xs

/-- Each entry as a pair. -/
def writeEntries : List (Value × Value) → List Value
  | [] => []
  | (k, v) :: es => .list [write k, write v] :: writeEntries es

end

end DocQuery.Lossless
