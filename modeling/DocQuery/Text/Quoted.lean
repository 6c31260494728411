-- SUMMARY: Quoted literals of texts and byte strings.
import DocQuery.Text.Printable
import DocQuery.Text.CodePoint
import DocQuery.Number.Decimal

/-!
# Quoted literals

Messages show a text between quotes. The quote is the apostrophe, or the double quote
when the text holds apostrophes and no double quotes. What has no shape of its own is
written as an escape.
-/

namespace DocQuery.Text

/-- The hexadecimal digits of `n`, in lower case, with zeros in front up to `width`. -/
def hexPadded (width n : Nat) : List Char :=
  let ds := Nat.toDigits 16 n
  List.replicate (width - ds.length) '0' ++ ds

/-- The quote for a text. -/
def quoteFor (cs : List Char) : Char :=
  if cs.contains '\'' && !cs.contains '"' then '"' else '\''

/-- An escape with the number of a code point. -/
def codeEscape (n : Nat) : List Char :=
  if n < 0x100 then '\\' :: 'x' :: hexPadded 2 n
  else if n < 0x10000 then '\\' :: 'u' :: hexPadded 4 n
  else '\\' :: 'U' :: hexPadded 8 n

/-- `c` inside a literal between `quote`s, where `shown` characters stand for
    themselves. -/
def escaped (shown : Char → Bool) (quote c : Char) : List Char :=
  if c = quote || c = '\\' then ['\\', c]
  else if c = '\n' then ['\\', 'n']
  else if c = '\r' then ['\\', 'r']
  else if c = '\t' then ['\\', 't']
  else if shown c then [c]
  else codeEscape c.toNat

/-- The literal of a row of characters. -/
def quotedWith (shown : Char → Bool) (cs : List Char) : List Char :=
  let quote := quoteFor cs
  quote :: (cs.flatMap (escaped shown quote) ++ [quote])

/-- `p` inside a literal between `quote`s. A surrogate has no shape. -/
def escapedPoint (quote : Char) (p : CodePoint) : List Char :=
  match p with
  | .char c => escaped isPrintable quote c
  | .surrogate _ => codeEscape p.number

/-- The literal of a text. -/
def quoted (s : String) : String :=
  String.ofList (quotedWith isPrintable s.toList)

/-- The literal of a broken text. -/
def BrokenText.quoted (t : BrokenText) : String :=
  let quote := quoteFor (t.points.map CodePoint.shown)
  String.ofList (quote :: (t.points.flatMap (escapedPoint quote) ++ [quote]))

/-- The literal of a byte string: ASCII characters that have a shape stand for
    themselves. -/
def quotedBytes (bytes : List UInt8) : String :=
  let shown (c : Char) := ' ' ≤ c && c ≤ '~'
  "b" ++ String.ofList (quotedWith shown (bytes.map fun b => Char.ofNat b.toNat))

end DocQuery.Text
