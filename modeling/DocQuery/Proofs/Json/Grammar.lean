-- SUMMARY: The grammar of JSON text: which rows of code points stand for which values.
import DocQuery.Json.Reader

/-!
# The grammar of JSON

JSON text is described without a reader. A value is a word, a number, a text, a list or an
object. A list is made of elements, which are values with blanks around them, and an object of
members, which are names with elements. Numbers may have any number of digits, and lists and
objects may stand in each other to any depth: limits are a matter of readers.
-/

namespace DocQuery.Json

open Text (CodePoint)
open Text.CodePoint (ofText)
open Decimal (ofDigits)

/-- The code points are blanks. -/
def AreBlanks (bs : List CodePoint) : Prop :=
  ∀ b ∈ bs, isSpace b = true

/-! ## Texts -/

/-- The escapes of one letter, and the characters that they stand for. -/
def letterEscapes : List (Char × Char) :=
  [('"', '"'), ('\\', '\\'), ('/', '/'), ('b', '\x08'), ('f', '\x0c'), ('n', '\n'), ('r', '\r'),
    ('t', '\t')]

/-- Four hexadecimal digits write a unit. -/
inductive IsHexUnit : List CodePoint → Nat → Prop
  | mk {a b c d : Char} {i j k l : Nat} (ha : Text.hexValue? a = some i)
    (hb : Text.hexValue? b = some j) (hc : Text.hexValue? c = some k)
    (hd : Text.hexValue? d = some l) :
    IsHexUnit [.char a, .char b, .char c, .char d] (16 * (16 * (16 * i + j) + k) + l)

/-- The escape of a unit at the front of what follows ends no pair. -/
def EndsNoPair (cs : List CodePoint) : Prop :=
  ∀ ds m more, cs = .char '\\' :: .char 'u' :: (ds ++ more) → IsHexUnit ds m →
    Text.isLowUnit m = false

/-- What stands between the quotes of a text, and the code points that it stands for. Two
    escapes side by side whose units make a pair stand for one character. -/
inductive IsContent : List CodePoint → List CodePoint → Prop
  | nil : IsContent [] []
  | plain {p : CodePoint} {cs ps : List CodePoint} (hquote : p ≠ .char '"')
    (hmark : p ≠ .char '\\') (hcontrol : isControl p = false) (h : IsContent cs ps) :
    IsContent (p :: cs) (p :: ps)
  | letter {c d : Char} {cs ps : List CodePoint} (hletter : (c, d) ∈ letterEscapes)
    (h : IsContent cs ps) : IsContent (.char '\\' :: .char c :: cs) (.char d :: ps)
  | unit {ds cs ps : List CodePoint} {n : Nat} (hn : IsHexUnit ds n)
    (halone : Text.isHighUnit n = true → EndsNoPair cs) (h : IsContent cs ps) :
    IsContent (.char '\\' :: .char 'u' :: (ds ++ cs)) (.ofNumber n :: ps)
  | pair {ds es cs ps : List CodePoint} {n m : Nat} (hn : IsHexUnit ds n) (hm : IsHexUnit es m)
    (hhigh : Text.isHighUnit n = true) (hlow : Text.isLowUnit m = true) (h : IsContent cs ps) :
    IsContent (.char '\\' :: .char 'u' :: (ds ++ .char '\\' :: .char 'u' :: (es ++ cs)))
      (Text.paired n m :: ps)

/-! ## Numbers -/

/-- One or more digits. -/
def AreDigits (ds : List Char) : Prop :=
  ds ≠ [] ∧ ∀ d ∈ ds, d.isDigit = true

/-- The digits of a whole number: zero alone, or digits without a zero in front. -/
def IsWhole (ds : List Char) : Prop :=
  ds = ['0'] ∨ AreDigits ds ∧ ds.head? ≠ some '0'

/-- The sign of a number. -/
def signText (negative : Bool) : List Char :=
  if negative then ['-'] else []

/-- A fraction and its digits; there may be none. -/
inductive IsFraction : List Char → List Char → Prop
  | none : IsFraction [] []
  | some {ds : List Char} (h : AreDigits ds) : IsFraction ('.' :: ds) ds

/-- The sign of an exponent, which may also be written where it is positive. -/
inductive IsExponentSign : List Char → Bool → Prop
  | none : IsExponentSign [] false
  | plus : IsExponentSign ['+'] false
  | minus : IsExponentSign ['-'] true

/-- An exponent and its value; there may be none. -/
inductive IsExponent : List Char → Int → Prop
  | none : IsExponent [] 0
  | some {mark : Char} {sign ds : List Char} {negative : Bool} (hmark : mark = 'e' ∨ mark = 'E')
    (hsign : IsExponentSign sign negative) (h : AreDigits ds) :
    IsExponent (mark :: (sign ++ ds)) (Number.signed negative (ofDigits 0 ds))

/-- A number. With a fraction or an exponent it stands for the nearest floating point number. -/
inductive IsNumber : List Char → Value → Prop
  | whole (negative : Bool) {ws : List Char} (h : IsWhole ws) :
    IsNumber (signText negative ++ ws) (.int (Number.signed negative (ofDigits 0 ws)))
  | real (negative : Bool) {ws fs es ds : List Char} {n : Int} (hwhole : IsWhole ws)
    (hfraction : IsFraction fs ds) (hexponent : IsExponent es n) (hreal : fs ≠ [] ∨ es ≠ []) :
    IsNumber (signText negative ++ (ws ++ (fs ++ es)))
      (.float (.ofDecimal negative (ofDigits 0 (ws ++ ds)) (n - ds.length)))

/-! ## Values -/

/-- A text between its quotes, and the code points that it stands for. -/
inductive IsText : List CodePoint → List CodePoint → Prop
  | mk {cs ps : List CodePoint} (h : IsContent cs ps) :
    IsText (.char '"' :: (cs ++ [.char '"'])) ps

/-- The name of a member, with blanks around it. -/
inductive IsName : List CodePoint → List CodePoint → Prop
  | mk {bs cs bs' ps : List CodePoint} (hbs : AreBlanks bs) (h : IsText cs ps)
    (hbs' : AreBlanks bs') : IsName (bs ++ (cs ++ bs')) ps

/-- A value under a name. -/
abbrev Member := List CodePoint × Value

/-- The entries of members. -/
def entries (ms : List Member) : List (Value × Value) :=
  ms.map fun m => (.ofPoints m.1, m.2)

/-- The mapping of members with different names. -/
def mapping (ms : List Member) : Value :=
  .map (entries ms)

mutual

/-- A value. Of two members with one name the later value stays, in the earlier place. -/
inductive IsValue : List CodePoint → Value → Prop
  | word {w : String} {v : Value} (h : (w, v) ∈ words) : IsValue (ofText w) v
  | number {cs : List Char} {v : Value} (h : IsNumber cs v) : IsValue (cs.map .char) v
  | text {cs ps : List CodePoint} (h : IsText cs ps) : IsValue cs (.ofPoints ps)
  | noElements {bs : List CodePoint} (h : AreBlanks bs) :
    IsValue (.char '[' :: (bs ++ [.char ']'])) (.list [])
  | list {cs : List CodePoint} {vs : List Value} (h : AreElements cs vs) :
    IsValue (.char '[' :: (cs ++ [.char ']'])) (.list vs)
  | noMembers {bs : List CodePoint} (h : AreBlanks bs) :
    IsValue (.char '\x7b' :: (bs ++ [.char '\x7d'])) (mapping [])
  | object {cs : List CodePoint} {ms : List Member} (h : AreMembers cs ms) :
    IsValue (.char '\x7b' :: (cs ++ [.char '\x7d'])) (mapping (Assoc.ofPairs ms))

/-- A value with blanks around it. -/
inductive IsElement : List CodePoint → Value → Prop
  | mk {bs cs bs' : List CodePoint} {v : Value} (hbs : AreBlanks bs) (h : IsValue cs v)
    (hbs' : AreBlanks bs') : IsElement (bs ++ (cs ++ bs')) v

/-- One or more elements with commas between them. -/
inductive AreElements : List CodePoint → List Value → Prop
  | last {cs : List CodePoint} {v : Value} (h : IsElement cs v) : AreElements cs [v]
  | more {cs ds : List CodePoint} {v : Value} {vs : List Value} (h : IsElement cs v)
    (hmore : AreElements ds vs) : AreElements (cs ++ .char ',' :: ds) (v :: vs)

/-- One or more members with commas between them. -/
inductive AreMembers : List CodePoint → List Member → Prop
  | last {ns cs ps : List CodePoint} {v : Value} (hname : IsName ns ps) (h : IsElement cs v) :
    AreMembers (ns ++ .char ':' :: cs) [(ps, v)]
  | more {ns cs ds ps : List CodePoint} {v : Value} {ms : List Member} (hname : IsName ns ps)
    (h : IsElement cs v) (hmore : AreMembers ds ms) :
    AreMembers (ns ++ .char ':' :: (cs ++ .char ',' :: ds)) ((ps, v) :: ms)

end

/-! ## Documents -/

/-- A document that is an object, with its members as they are written. -/
inductive IsObject : List CodePoint → List Member → Prop
  | none {bs cs bs' : List CodePoint} (hbs : AreBlanks bs) (h : AreBlanks cs)
    (hbs' : AreBlanks bs') :
    IsObject (bs ++ (.char '\x7b' :: (cs ++ [.char '\x7d']) ++ bs')) []
  | some {bs cs bs' : List CodePoint} {ms : List Member} (hbs : AreBlanks bs)
    (h : AreMembers cs ms) (hbs' : AreBlanks bs') :
    IsObject (bs ++ (.char '\x7b' :: (cs ++ [.char '\x7d']) ++ bs')) ms

/-- The value of the last member with a name; null where there is none. -/
def lastMember (ms : List Member) (name : String) : Value :=
  (Assoc.find? (ofText name) ms.reverse).getD .null

theorem IsObject.isElement {ps : List CodePoint} {ms : List Member} (h : IsObject ps ms) :
    IsElement ps (mapping (Assoc.ofPairs ms)) := by
  cases h with
  | none hbs h hbs' => exact .mk hbs (.noMembers h) hbs'
  | some hbs h hbs' => exact .mk hbs (.object h) hbs'

/-- A document that stands for a mapping is an object. -/
theorem IsElement.exists_isObject {ps : List CodePoint} {es : List (Value × Value)}
    (h : IsElement ps (.map es)) :
    ∃ ms, IsObject ps ms ∧ .map es = mapping (Assoc.ofPairs ms) := by
  obtain ⟨hbs, h, hbs'⟩ := h
  generalize hv : Value.map es = v at h
  cases h with
  | noMembers h => exact ⟨[], .none hbs h hbs', rfl⟩
  | object h => exact ⟨_, .some hbs h hbs', rfl⟩
  | word h =>
    subst hv
    simp [words] at h
  | number h => cases h <;> cases hv
  | text h =>
    unfold Value.ofPoints at hv
    split at hv <;> cases hv
  | noElements h => cases hv
  | list h => cases hv

end DocQuery.Json
