-- SUMMARY: Blank characters, and trimming a text at either end.
import DocQuery.Text.CodeRange

/-!
# Blanks

A blank is a character that only separates: the spaces and line ends of every
script, and the four separators among the control characters. Trimming takes a
predicate, because orderings trim signs in the same way as they trim blanks.
-/

namespace DocQuery.Text

/-- The blank code points. -/
def blankRanges : List CodeRange :=
  [(0x9, 0xD), (0x1C, 0x20), (0x85, 0x85), (0xA0, 0xA0), (0x1680, 0x1680), (0x2000, 0x200A),
   (0x2028, 0x2029), (0x202F, 0x202F), (0x205F, 0x205F), (0x3000, 0x3000)]

/-- `c` only separates. -/
def isBlank (c : Char) : Bool :=
  CodeRange.holds blankRanges c

/-- `c` is a space or a line end: a blank that is none of the four control characters. -/
def isWhite (c : Char) : Bool :=
  isBlank c && !(0x1C ≤ c.toNat && c.toNat ≤ 0x1F)

/-- `c` is the space, the tab or a line end of the oldest kinds. -/
def isPlainBlank (c : Char) : Bool :=
  c == ' ' || ('\t' ≤ c && c ≤ '\r')

/-- `cs` without the characters at its end that satisfy `p`. -/
def trimRight (p : Char → Bool) (cs : List Char) : List Char :=
  (cs.reverse.dropWhile p).reverse

/-- `cs` without the characters at both ends that satisfy `p`. -/
def trim (p : Char → Bool) (cs : List Char) : List Char :=
  trimRight p (cs.dropWhile p)

/-- `s` without the blanks at both ends. -/
def stripped (s : String) : String :=
  String.ofList (trim isBlank s.toList)

end DocQuery.Text
