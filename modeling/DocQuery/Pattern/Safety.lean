-- SUMMARY: Checking search patterns for constructs that make matching explode.
import DocQuery.Error
import DocQuery.Text.Blank
import DocQuery.Text.Digit

/-!
# Safe patterns

The store matches patterns by backtracking, which takes exponential time on some of
them. A pattern from a caller is refused when it is too long or when its text shows one
of five shapes: a look-around, a large repetition count, two wildcards in a row, a
repeated group that holds a repetition, or the same inside an extension group. The
shapes are looked for in the text, without reading its structure.
-/

namespace DocQuery.Pattern

/-- Some end part of `cs`, `cs` itself included, satisfies `p`. -/
def occurs (p : List Char → Bool) : List Char → Bool
  | [] => p []
  | c :: cs => p (c :: cs) || occurs p cs

/-- `c` repeats what stands before it. -/
def isRepeat (c : Char) : Bool :=
  c == '+' || c == '*'

/-- Begins a look-around. -/
def isLookAround : List Char → Bool
  | '(' :: '?' :: '=' :: _ => true
  | '(' :: '?' :: '!' :: _ => true
  | '(' :: '?' :: '<' :: '!' :: _ => true
  | '(' :: '?' :: '<' :: '=' :: _ => true
  | _ => false

/-- Begins a repetition count of three digits or more. -/
def isLargeCount : List Char → Bool
  | '{' :: rest =>
    let first := rest.takeWhile Text.isDigit
    match rest.dropWhile Text.isDigit with
    | '}' :: _ => 3 ≤ first.length
    | ',' :: rest =>
      let second := rest.takeWhile Text.isDigit
      1 ≤ first.length && 3 ≤ second.length
        && (rest.dropWhile Text.isDigit).head? == some '}'
    | _ => false
  | _ => false

/-- What follows a repeated wildcard at the front. -/
def afterWildcard? : List Char → Option (List Char)
  | '.' :: c :: rest => if isRepeat c then some rest else none
  | _ => none

/-- Begins two repeated wildcards with only blanks between them. -/
def isWildcardPair (cs : List Char) : Bool :=
  match afterWildcard? cs with
  | some rest => (afterWildcard? (rest.dropWhile Text.isBlank)).isSome
  | none => false

/-- What stands before the first closing parenthesis, and what after it. -/
def splitAtClose? (cs : List Char) : Option (List Char × List Char) :=
  match cs.dropWhile (· != ')') with
  | _ :: rest => some (cs.takeWhile (· != ')'), rest)
  | [] => none

/-- Begins a group with a repetition that is itself repeated. -/
def isRepeatedGroup : List Char → Bool
  | '(' :: rest =>
    match splitAtClose? rest with
    | some (body, after) =>
      body.any isRepeat && ((after.dropWhile Text.isBlank).head?.any isRepeat)
    | none => false
  | _ => false

/-- Begins an extension group that holds a group with a repetition, and ends with a
    repetition. -/
def isExtensionGroup : List Char → Bool
  | '(' :: '?' :: rest =>
    match splitAtClose? rest with
    | some (body, after) =>
      ((body.dropWhile (· != '(')).drop 1).any isRepeat
        && (match splitAtClose? after with
            | some (tail, _) => tail.getLast?.any isRepeat
            | none => false)
    | none => false
  | _ => false

/-- The pattern shows a shape that makes matching explode. -/
def isExplosive (cs : List Char) : Bool :=
  occurs isLookAround cs || occurs isLargeCount cs || occurs isWildcardPair cs
    || occurs isRepeatedGroup cs || occurs isExtensionGroup cs

/-- The longest pattern that is accepted. -/
def maxLength : Nat := 500

/-- The source of a pattern: of a search pattern its own, of anything else what is shown. -/
def source : Value → Value
  | .regex r => .text r.source
  | v => v.shownText

/-- The source of a pattern that is short enough and not explosive. The limit has to be
    a number. -/
def check (pattern limit : Value) : Except Error String :=
  let s := (source pattern).display
  match limit.number? with
  | none => .error .mistyped
  | some n =>
    if n.less (.int s.length) then
      .error (.argument (.pattern (.tooLong s.length limit)))
    else if isExplosive s.toList then .error (.argument (.pattern (.backtracks (source pattern))))
    else .ok s

end DocQuery.Pattern
