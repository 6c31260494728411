-- SUMMARY: Reading the source of a search pattern: its tokens, escapes and classes.
import DocQuery.Error
import DocQuery.Pattern.Regex
import DocQuery.Text.Digit
import DocQuery.Value.Whole

/-!
# Reading patterns

The source of a search pattern is a row of tokens: characters, and escapes, which are a
backslash and the character behind it. A reading takes tokens from the front and keeps
what later parts of the source rest on: the flags, the groups and their widths, and what
can only be judged at the end.

A reading makes no matcher. It tells which sources follow the rules, and the flags that
they set; so of each part of a pattern it keeps just the width and the way in which it
may be repeated.
-/

namespace DocQuery.Pattern

/-! ## Tokens -/

/-- A part of a source that is read as one. -/
inductive Token where
  | plain (c : Char)
  | escaped (c : Char)
  deriving DecidableEq, Repr

/-- The characters of a token. -/
def Token.chars : Token → List Char
  | plain c => [c]
  | escaped c => ['\\', c]

/-- The tokens of a source. A backslash that escapes nothing is the last one. -/
def tokens : List Char → List Token
  | '\\' :: c :: cs => .escaped c :: tokens cs
  | c :: cs => .plain c :: tokens cs
  | [] => []

/-- A backslash that escapes nothing. -/
def Token.backslash : Token := .plain '\\'

/-! ## Widths -/

/-- How many characters a part of a pattern matches. -/
structure Width where
  least : Nat
  /-- None when there is no bound. -/
  greatest : Option Nat
  deriving DecidableEq, Repr

namespace Width

/-- The width of a place between characters. -/
def zero : Width := ⟨0, some 0⟩

/-- The width of one character. -/
def one : Width := ⟨1, some 1⟩

/-- One part behind the other. -/
def add (v w : Width) : Width :=
  ⟨v.least + w.least, v.greatest.bind fun m => w.greatest.map (m + ·)⟩

/-- Either of two parts. -/
def or (v w : Width) : Width :=
  ⟨min v.least w.least, v.greatest.bind fun m => w.greatest.map (max m)⟩

/-- A part that is repeated. Nothing stays nothing, however often it is repeated. -/
def times (w : Width) (least : Nat) (most : Option Nat) : Width :=
  ⟨w.least * least,
    if w.greatest = some 0 ∨ most = some 0 then some 0
    else w.greatest.bind fun m => most.map (m * ·)⟩

/-- Every match is equally wide, and not too wide to look back over it. -/
def isFixed (w : Width) : Bool :=
  w.greatest = some w.least && w.least < 0x100000000

end Width

/-! ## Parts -/

/-- The ways in which parts of a pattern take a repetition. -/
inductive PartKind where
  /-- A place between characters; there is nothing to repeat. -/
  | place
  /-- A part that is repeated already. -/
  | repeated
  | matcher
  deriving DecidableEq, Repr

/-- A part of a pattern. -/
structure Part where
  kind : PartKind
  width : Width
  deriving DecidableEq, Repr

namespace Part

/-- A place between characters. -/
def place : Part := ⟨.place, .zero⟩

/-- A part that matches characters. -/
def matcher (w : Width) : Part := ⟨.matcher, w⟩

/-- A part that matches one character. -/
def one : Part := matcher .one

end Part

/-! ## Readings -/

/-- What is left of a source, and what was read so far. -/
structure Progress where
  rest : List Token
  flags : List PatternFlag
  /-- The numbers of the groups with a name. -/
  names : List (String × Nat)
  /-- The widths of the groups, from number one; none while a group is open. -/
  groups : List (Option Width)
  /-- How many groups began before the look-behind that is being read. -/
  behind : Option Nat
  /-- The numbers of the groups that conditions ask for. -/
  wanted : List Nat
  /-- The widths of the look-behinds. -/
  looks : List Width
  /-- Some part is repeated. -/
  repeats : Bool
  /-- How many groups are around what is read. -/
  depth : Nat

/-- A step through a source. -/
abbrev Reading := StateT Progress (Except Error)

/-- The source breaks the rules. -/
def refuse : Reading α :=
  throw .malformedPattern

/-- The next token. -/
def peek? : Reading (Option Token) := do
  return (← get).rest.head?

/-- Passes the next token. -/
def advance : Reading Unit :=
  modify fun p => { p with rest := p.rest.drop 1 }

/-- The next token, which must be there. -/
def take : Reading Token := do
  match ← peek? with
  | some t => advance; return t
  | none => refuse

/-- Passes a character if it is next. -/
def accept (c : Char) : Reading Bool := do
  if (← peek?) == some (.plain c) then
    advance
    return true
  else return false

/-- Passes a character, which must be next. -/
def expect (c : Char) : Reading Unit := do
  unless ← accept c do refuse

/-- The characters in front for which `p` holds, up to a number of them. -/
def takeWhile (p : Char → Bool) : Nat → Reading (List Char)
  | 0 => return []
  | n + 1 => do
    match ← peek? with
    | some (.plain c) =>
      if p c then
        advance
        return c :: (← takeWhile p n)
      else return []
    | _ => return []

/-- All characters in front for which `p` holds. -/
def takeAll (p : Char → Bool) : Reading (List Char) := do
  takeWhile p (← get).rest.length

/-- Some text and the character that ends it. -/
def textUntil (stop : Char) : Reading (List Char) := do
  let p ← get
  match p.rest.span (· != .plain stop) with
  | ([], _) | (_, []) => refuse
  | (text, _ :: rest) =>
    set { p with rest := rest }
    return text.flatMap Token.chars

/-! ## Groups -/

/-- The greatest number of groups that stand in each other. -/
def maxDepth : Nat := 490

/-- Goes into a group. -/
def enter : Reading Unit := do
  let p ← get
  if p.depth < maxDepth then set { p with depth := p.depth + 1 } else throw .tooDeep

/-- Leaves a group. -/
def leave : Reading Unit :=
  modify fun p => { p with depth := p.depth - 1 }

/-- Inside of a look-behind a group must have been closed before the look-behind began. -/
def checkBehind (n : Nat) : Reading Unit := do
  let p ← get
  match p.behind with
  | none => return
  | some limit =>
    match p.groups[n - 1]? with
    | some (some _) => unless n ≤ limit do refuse
    | _ => refuse

/-- What matches a group once more. The group must be closed. -/
def backReference (n : Nat) : Reading Part := do
  match (← get).groups[n - 1]? with
  | some (some w) =>
    checkBehind n
    return .matcher w
  | _ => refuse

/-- Opens the next group; its name must be new. -/
def openGroup (name : Option String) : Reading Nat := do
  let p ← get
  let n := p.groups.length + 1
  match name with
  | none => set { p with groups := p.groups ++ [none] }
  | some s =>
    if (p.names.lookup s).isSome then refuse
    set { p with groups := p.groups ++ [none], names := (s, n) :: p.names }
  return n

/-- Closes a group whose width is known now. -/
def closeGroup (n : Nat) (w : Width) : Reading Unit :=
  modify fun p => { p with groups := p.groups.set (n - 1) (some w) }

/-! ## Escapes -/

/-- The control characters that letters escape. -/
def controls : List (Char × Nat) :=
  [('a', 7), ('b', 8), ('t', 9), ('n', 10), ('v', 11), ('f', 12), ('r', 13)]

/-- `c` names a class of characters. -/
def isClassLetter (c : Char) : Bool :=
  ['d', 'D', 's', 'S', 'w', 'W'].contains c

/-- `c` names a place between characters. -/
def isPlaceLetter (c : Char) : Bool :=
  ['A', 'b', 'B', 'Z'].contains c

/-- `c` is a letter that escapes nothing when no rule says what. -/
def isReserved (c : Char) : Bool :=
  c.isAlpha || c.isDigit

/-- `c` is an octal digit. -/
def isOctal (c : Char) : Bool :=
  '0' ≤ c && c ≤ '7'

/-- The number that digits of a base write. -/
def numeral (base : Nat) (ds : List Char) : Nat :=
  ds.foldl (fun n d => base * n + (Text.hexValue? d).getD 0) 0

/-- The number that a fixed number of hexadecimal digits write. -/
def hexEscape (digits : Nat) : Reading Nat := do
  let ds ← takeWhile (fun c => (Text.hexValue? c).isSome) digits
  if ds.length = digits then return numeral 16 ds else refuse

/-- The greatest octal escape. -/
def maxOctal : Nat := 0o377

/-- A member of a class. -/
inductive Member where
  | point (n : Nat)
  /-- A character that is told by its name. -/
  | named
  /-- A class inside of the class. -/
  | kind
  deriving DecidableEq, Repr

/-- The characters have the form of a name of a character. The names are not looked up. -/
def isCharName : List Char → Bool
  | c :: d :: cs => c.isAlpha && (d :: cs).all fun c => c.isAlphanum || c == ' ' || c == '-'
  | _ => false

/-- The character of an escape that tells its number or its name. -/
def codeEscape? (c : Char) : Reading (Option Member) := do
  match c with
  | 'x' => return some (.point (← hexEscape 2))
  | 'u' => return some (.point (← hexEscape 4))
  | 'U' =>
    let n ← hexEscape 8
    if n < 0x110000 then return some (.point n) else refuse
  | 'N' =>
    expect '{'
    let name ← textUntil '}'
    if isCharName name then return some .named else refuse
  | _ => return none

/-- An escape by digits: three octal ones write a character, fewer of them the number of
    a group. -/
def digitEscape (c : Char) : Reading Part := do
  if c = '0' then
    let _ ← takeWhile isOctal 2
    return .one
  match ← takeWhile Char.isDigit 1 with
  | [d] =>
    let more ← if isOctal c && isOctal d then takeWhile isOctal 1 else pure []
    match more with
    | [e] => if numeral 8 [c, d, e] ≤ maxOctal then return .one else refuse
    | _ => backReference (numeral 10 [c, d])
  | _ => backReference (numeral 10 [c])

/-- The part that an escape outside of classes writes. -/
def escapedPart (c : Char) : Reading Part := do
  if isPlaceLetter c then return .place
  if isClassLetter c || (controls.lookup c).isSome then return .one
  if c.isDigit then return ← digitEscape c
  match ← codeEscape? c with
  | some _ => return .one
  | none => if isReserved c then refuse else return .one

/-- The member of a class that an escape writes. -/
def escapedMember (c : Char) : Reading Member := do
  if isClassLetter c then return .kind
  if let some n := controls.lookup c then return .point n
  if isOctal c then
    let n := numeral 8 (c :: (← takeWhile isOctal 2))
    if n ≤ maxOctal then return .point n else refuse
  match ← codeEscape? c with
  | some m => return m
  | none => if isReserved c then refuse else return .point c.toNat

/-! ## Classes -/

/-- The member of a class that a token writes. -/
def member : Token → Reading Member
  | .plain c => return .point c.toNat
  | .escaped c => escapedMember c

/-- A range may go from one member to the other. -/
def Member.isRange : Member → Member → Bool
  | point m, point n => m ≤ n
  | kind, _ | _, kind => false
  | _, _ => true

/-- The members of a class and its end. A bracket right at the start, where nothing was
    `seen`, is a member. The fuel bounds the number of members. -/
def members (seen : Bool) : Nat → Reading Unit
  | 0 => refuse
  | fuel + 1 => do
    let t ← take
    if seen && t == .plain ']' then return
    let low ← member t
    if ← accept '-' then
      let t ← take
      if t == .plain ']' then return
      unless low.isRange (← member t) do refuse
    members true fuel

/-- A class, whose opening bracket was read. -/
def charClass : Reading Part := do
  let _ ← accept '^'
  members false ((← get).rest.length + 1)
  return .one

/-! ## Repetitions -/

/-- The least count of repetitions that is too large. -/
def countLimit : Nat := 0xFFFFFFFF

/-- The count that digits write. -/
def count (ds : List Char) : Except Error Nat :=
  if Whole.maxDigits < ds.length then .error (.argument (.intTextTooLong ds.length))
  else if countLimit ≤ numeral 10 ds then .error .overflow
  else .ok (numeral 10 ds)

/-- The counts in braces, whose opening one was read. None when it begins no counts; then
    nothing more is read. -/
def counts? : Reading (Option (Nat × Option Nat)) := do
  let before ← get
  let low ← takeAll Char.isDigit
  let comma ← accept ','
  let high ← if comma then takeAll Char.isDigit else pure low
  let closed ← accept '}'
  if !closed || (low.isEmpty && !comma) then
    set before
    return none
  let least ← if low.isEmpty then pure 0 else count low
  if high.isEmpty then return some (least, none)
  let most ← count high
  if most < least then refuse
  return some (least, some most)

/-- Repeats the last part. The parts are given last first. -/
def repeatLast (least : Nat) (most : Option Nat) : List Part → Reading (List Part)
  | ⟨.matcher, w⟩ :: earlier => do
    unless ← accept '?' do
      let _ ← accept '+'
    modify fun p => { p with repeats := true }
    return ⟨.repeated, w.times least most⟩ :: earlier
  | _ => refuse

end DocQuery.Pattern
