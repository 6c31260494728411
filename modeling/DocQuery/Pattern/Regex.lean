-- SUMMARY: Search patterns given as such, and their flags.

/-!
# Search patterns

A search pattern has a source and flags. Some flags are given beside the source; others
are set by flag groups such as `(?im)` at the start of the source.
-/

namespace DocQuery

/-- A flag of a search pattern. -/
inductive PatternFlag where
  | template
  | ignoreCase
  | multiline
  | dotAll
  | verbose
  | ascii
  /-- Classes such as `\w` cover every script. This holds anyway, unless `ascii` is set. -/
  | unicode
  deriving DecidableEq, Repr

namespace PatternFlag

/-- The name of a flag. -/
def name : PatternFlag → String
  | template => "TEMPLATE"
  | ignoreCase => "IGNORECASE"
  | multiline => "MULTILINE"
  | dotAll => "DOTALL"
  | verbose => "VERBOSE"
  | ascii => "ASCII"
  | unicode => "UNICODE"

/-- The flags that are shown, in this order. -/
def shown : List PatternFlag := [template, ignoreCase, multiline, dotAll, verbose, ascii]

/-- The flag of a letter in a flag group. -/
def ofLetter? : Char → Option PatternFlag
  | 't' => some template
  | 'i' => some ignoreCase
  | 'm' => some multiline
  | 's' => some dotAll
  | 'x' => some verbose
  | 'a' => some ascii
  | 'u' => some unicode
  | _ => none

/-- `c` may stand in a flag group. -/
def isLetter (c : Char) : Bool :=
  (ofLetter? c).isSome

/-- The flag tells what classes such as `\w` cover. -/
def isReach : PatternFlag → Bool
  | ascii | unicode => true
  | _ => false

end PatternFlag

/-- A search pattern. -/
structure Regex where
  source : String
  /-- The flags, given and set by the source. -/
  flags : List PatternFlag
  deriving DecidableEq, Repr

/-- Upper and lower case match each other. -/
def Regex.ignoresCase (r : Regex) : Bool :=
  r.flags.contains .ignoreCase

end DocQuery
