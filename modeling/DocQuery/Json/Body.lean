-- SUMMARY: JSON text in bytes: its charset is told by its first bytes.
import DocQuery.Json.Reader
import DocQuery.Text.Charset

/-!
# JSON in bytes

A body is JSON text in bytes. JSON text starts with characters that are written as one
byte followed or preceded by zeros, so the places of the zeros among the first bytes tell
the charset. A byte order mark in front of text in units of one byte does not count.
-/

namespace DocQuery.Json

open Text (ByteOrder Charset CodePoint)

/-- The charset of JSON text in bytes. -/
def charsetOf : List UInt8 → Charset
  | 0 :: b :: _ :: _ :: _ => if b = 0 then .utf32 .highFirst else .utf16 .highFirst
  | _ :: 0 :: c :: d :: _ => if c = 0 ∧ d = 0 then .utf32 .lowFirst else .utf16 .lowFirst
  | [0, _] => .utf16 .highFirst
  | [_, 0] => .utf16 .lowFirst
  | _ => .utf8

/-- The bytes of a byte order mark. -/
def mark : List UInt8 := [0xEF, 0xBB, 0xBF]

/-- The code points of JSON text in bytes. -/
def decode? (bytes : List UInt8) : Option (List CodePoint) :=
  if mark.isPrefixOf bytes then Charset.utf8.decode? (bytes.drop mark.length)
  else (charsetOf bytes).decode? bytes

/-- The value that JSON text in bytes stands for. -/
def readBytes (bytes : List UInt8) : Except Error Value :=
  match decode? bytes with
  | some ps => readPoints ps
  | none => .error .undecodable

end DocQuery.Json
