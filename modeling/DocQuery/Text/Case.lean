-- SUMMARY: Upper case of a character and lower case of a text.
import DocQuery.Text.CaseTable

/-!
# Case

The upper case of a character can be several characters. The lower case of a capital
sigma depends on its place: at the end of a word it is the final form.
-/

namespace DocQuery.Text

/-- The upper case of `c`. -/
def upper (c : Char) : List Char :=
  match upperExpansions.lookup c.toNat with
  | some codes => codes.map Char.ofNat
  | none =>
    match upperRuns.findSome? (·.map? c.toNat) with
    | some n => [Char.ofNat n]
    | none => [c]

/-- The lower case of a character wherever it stands. -/
def lowerAnywhere (c : Char) : List Char :=
  if c = 'İ' then ['i', Char.ofNat 0x307]
  else
    match lowerRuns.findSome? (·.map? c.toNat) with
    | some n => [Char.ofNat n]
    | none => [c]

/-- The first character of `cs` that is not skipped has a case. -/
def meetsCased (cs : List Char) : Bool :=
  match cs.dropWhile (CodeRange.holds caseIgnorableRanges) with
  | [] => false
  | c :: _ => CodeRange.holds casedRanges c

/-- The lower case of `rest`, where `before` holds the characters in front of it, the
    nearest first. -/
def lowerAfter (before : List Char) : List Char → List Char
  | [] => []
  | c :: rest =>
    (if c = 'Σ' then
        if meetsCased before && !meetsCased rest then ['ς'] else ['σ']
      else lowerAnywhere c) ++ lowerAfter (c :: before) rest

/-- The lower case of a text. -/
def lower (cs : List Char) : List Char :=
  lowerAfter [] cs

end DocQuery.Text
