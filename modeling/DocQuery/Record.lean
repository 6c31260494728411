-- SUMMARY: Checking the fields of a record together, so that every refused field is told.
import DocQuery.Error
import DocQuery.Text.Charset

/-!
# Checked records

Callers describe constraints, orderings and groupings by named fields. Every field is
checked, and all refusals are told at once: first those of the known fields, in their
order, then the fields that the record does not know.
-/

namespace DocQuery

/-- A checked value, or the refusals. -/
abbrev Checked (α : Type) := Except (List Refusal) α

namespace Checked

/-- Both values, or the refusals of both. -/
def and (a : Checked α) (b : Checked β) : Checked (α × β) :=
  match a, b with
  | .ok x, .ok y => .ok (x, y)
  | .ok _, .error rs => .error rs
  | .error rs, .ok _ => .error rs
  | .error rs, .error ss => .error (rs ++ ss)

/-- The value, or all refusals as one error. -/
def toExcept : Checked α → Except Error α
  | .ok a => .ok a
  | .error rs => .error (.refused rs)

end Checked

namespace Record

/-- The named arguments of a record. -/
abbrev Args := List (String × Value)

/-- One refusal, at a field. -/
def refuse (name : String) (fault : FieldFault) : Checked α :=
  .error [⟨[.field name], fault⟩]

/-- A field: checked when it is given, otherwise its default; without one it is missing. -/
def field (args : Args) (name : String) (default : Option α)
    (check : String → Value → Checked α) : Checked α :=
  match args.lookup name, default with
  | some v, _ => check name v
  | none, some a => .ok a
  | none, none => refuse name .missing

/-- No other fields than the known ones are given. -/
def noOthers (args : Args) (known : List String) : Checked Unit :=
  match args.filter fun (name, _) => !known.contains name with
  | [] => .ok ()
  | others => .error (others.map fun (name, _) => ⟨[.field name], .unexpected⟩)

/-! ## Checks -/

/-- A text, as such or in bytes, that is not broken. -/
def textOf (v : Value) : Except FieldFault String :=
  match v.text?, v with
  | some s, _ => .ok s
  | none, .bytes bs => (Text.ofBytes? bs).elim (.error .brokenText) .ok
  | none, .brokenText _ => .error .brokenText
  | none, _ => .error .noText

/-- A field with a text. -/
def text (name : String) (v : Value) : Checked String :=
  match textOf v with
  | .ok s => .ok s
  | .error fault => refuse name fault

/-- A text that is not empty. -/
def fullText (name : String) (v : Value) : Checked String :=
  match text name v with
  | .ok s => if s.isEmpty then refuse name .emptyText else .ok s
  | refused => refused

/-- A text or null. -/
def optionalText (name : String) (v : Value) : Checked (Option String) :=
  match v with
  | .null => .ok none
  | v => (text name v).map some

/-- A word of a vocabulary. -/
def word (α : Type) [Vocabulary α] (name : String) (v : Value) : Checked α :=
  match (textOf v).toOption.bind (Vocabulary.ofName? α) with
  | some w => .ok w
  | none => refuse name .notAWord

/-- The texts for true. -/
def trueTexts : List String := ["1", "on", "t", "true", "y", "yes"]

/-- The texts for false. -/
def falseTexts : List String := ["0", "off", "f", "false", "n", "no"]

/-- A truth value by its text, in letters of either case. -/
def truthOfText? (s : String) : Option Bool :=
  let word := String.ofList (s.toList.map Char.toLower)
  if trueTexts.contains word then some true
  else if falseTexts.contains word then some false
  else none

/-- A truth value by its number. -/
def truthOfInt? (n : Int) : Option Bool :=
  if n = 1 then some true else if n = 0 then some false else none

/-- `n` can be kept in 64 bits. -/
def isWord64 (n : Int) : Bool :=
  -0x8000000000000000 ≤ n && n < 0x8000000000000000

/-- The whole number that a floating point number equals, if it lies strictly within what
    64 bits can keep. -/
def wholeOf? (x : Binary64) : Option Int :=
  match (Number.float x).truncate with
  | .ok n =>
    if (Number.float x).equal (.int n) && isWord64 n && isWord64 (-n) then some n else none
  | .error _ => none

/-- A truth value, as such, as the number one or zero, or as a text. -/
def truthOf (v : Value) : Except FieldFault Bool :=
  let reading (r : Option Bool) := match r with
    | some b => .ok b
    | none => .error FieldFault.notATruthText
  match v with
  | .bool b => .ok b
  | .text s => reading (truthOfText? s)
  | .tagKey k => reading (truthOfText? k.text)
  | .bytes bs => reading (truthOfText? (String.ofList (bs.map fun b => Char.ofNat b.toNat)))
  | .int n => if isWord64 n then reading (truthOfInt? n) else .error .noTruth
  | .float x =>
    match wholeOf? x with
    | some n => reading (truthOfInt? n)
    | none => .error .noTruth
  | _ => .error .noTruth

/-- A field with a truth value. -/
def truth (name : String) (v : Value) : Checked Bool :=
  match truthOf v with
  | .ok b => .ok b
  | .error fault => refuse name fault

end Record

end DocQuery
