-- SUMMARY: References to stored objects and their compact text `Class$id`.
import DocQuery.Text.Letter

/-!
# Pointers

A pointer names an object by its class and its id. Storage keeps it as the text
`Class$id`. A text is read as a pointer when the class is a letter, perhaps after one
underscore, followed by word characters, and the id is made of word characters and
hyphens. A line end after the id is ignored.
-/

namespace DocQuery

/-- A reference to an object. -/
structure Pointer where
  className : String
  objectId : String
  deriving DecidableEq, Repr

namespace Pointer

/-- `Class$id`. -/
def compact (p : Pointer) : String :=
  p.className ++ "$" ++ p.objectId

/-- `Class#id`, for labels. -/
def label (p : Pointer) : String :=
  p.className ++ "#" ++ p.objectId

/-- An ASCII letter. -/
def isAsciiLetter (c : Char) : Bool :=
  c.isAlpha

/-- The characters are a class name. -/
def isClassName : List Char → Bool
  | '_' :: c :: rest => isAsciiLetter c && rest.all Text.isWordChar
  | c :: rest => isAsciiLetter c && rest.all Text.isWordChar
  | [] => false

/-- `c` may stand in an object id. -/
def isIdChar (c : Char) : Bool :=
  Text.isWordChar c || c == '-'

/-- A compact text, read. -/
def ofCompact? (s : String) : Option Pointer :=
  let className := s.toList.takeWhile Text.isWordChar
  match s.toList.dropWhile Text.isWordChar with
  | '$' :: rest =>
    let objectId := rest.takeWhile isIdChar
    let tail := rest.dropWhile isIdChar
    if isClassName className && !objectId.isEmpty && (tail.isEmpty || tail == ['\n']) then
      some ⟨String.ofList className, String.ofList objectId⟩
    else none
  | _ => none

end Pointer

end DocQuery
