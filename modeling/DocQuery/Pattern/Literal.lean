-- SUMMARY: Patterns that match a text literally.
import DocQuery.Text.CodePoint

/-!
# Literal patterns

A text becomes a pattern for itself by writing a backslash before every character that
a pattern would read otherwise, and before blanks, which some readers skip.
-/

namespace DocQuery.Pattern

/-- The characters that are escaped. -/
def specialChars : List Char :=
  "()[]\x7b\x7d?*+-|^$\\.&~# \t\n\r\x0b\x0c".toList

/-- `c` as a pattern for itself. -/
def escapeChar (c : Char) : List Char :=
  if specialChars.contains c then ['\\', c] else [c]

/-- A code point as a pattern for itself. A surrogate is never escaped. -/
def escapePoint : Text.CodePoint → List Text.CodePoint
  | .char c => (escapeChar c).map .char
  | .surrogate n => [.surrogate n]

/-- A row of code points as a pattern for itself. -/
def escape (ps : List Text.CodePoint) : List Text.CodePoint :=
  ps.flatMap escapePoint

end DocQuery.Pattern
