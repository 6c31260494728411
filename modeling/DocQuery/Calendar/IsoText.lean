-- SUMMARY: Reading of ISO 8601 dates and times.
import DocQuery.Calendar.DateTime
import DocQuery.Number.Decimal

/-!
# ISO 8601 texts

A text is a day, then perhaps a separator, a time and an offset. The day is a calendar
date or a week date, with hyphens or without. The time has hours, then perhaps minutes,
seconds and a fraction, with colons or without. Any one character separates the two.

Some slack belongs to the format. After the last component of a time, and before an
offset, there may be one ASCII character more, or anything after a fraction of six
digits; without an offset nothing may follow. A NUL ends the text.
-/

namespace DocQuery.IsoText

/-- The value of the first `k` characters, all digits, and the rest. -/
def digits? (k : Nat) (cs : List Char) : Option (Nat × List Char) :=
  let ds := cs.take k
  if ds.length = k ∧ ds.all Char.isDigit then
    some (Decimal.ofDigits 0 ds, cs.drop k)
  else none

/-! ## The day -/

/-- The length of the day in front of the separator. The fifth and sixth characters tell
    the form. After `YYYY-Www` a hyphen begins the weekday unless two digits follow it;
    after `YYYYWww` an even number of digits is all time. -/
def dayLength (cs : List Char) : Nat :=
  if cs.length = 7 then 7
  else
    match cs[4]? with
    | some '-' =>
      if cs[5]? = some 'W' then
        if cs[8]? = some '-' then
          if (cs[10]?.any Char.isDigit) then 8 else 10
        else 8
      else 10
    | some 'W' =>
      let stop := 7 + ((cs.drop 7).takeWhile Char.isDigit).length
      if stop < 9 then stop
      else if stop % 2 = 0 then 7
      else 8
    | _ => 8

/-- A day that makes up all of the text. -/
def day? (cs : List Char) : Option Date := do
  let (year, rest) ← digits? 4 cs
  let (hyphens, rest) := match rest with
    | '-' :: tail => (true, tail)
    | tail => (false, tail)
  match rest with
  | 'W' :: tail =>
    let (week, rest) ← digits? 2 tail
    match hyphens, rest with
    | _, [] => Date.ofIsoWeek? year week 1
    | true, '-' :: tail =>
      let (weekday, _) ← digits? 1 tail
      Date.ofIsoWeek? year week weekday
    | true, _ => none
    | false, tail =>
      let (weekday, _) ← digits? 1 tail
      Date.ofIsoWeek? year week weekday
  | tail =>
    let (month, rest) ← digits? 2 tail
    let rest ← match hyphens, rest with
      | true, '-' :: tail => some tail
      | true, _ => none
      | false, tail => some tail
    let (day, _) ← digits? 2 rest
    let d : Date := ⟨year, month, day⟩
    if d.isValid then some d else none

/-! ## The time -/

/-- A reading of the clock, and whether it makes up all of its text. -/
structure Clock where
  hour : Nat
  minute : Nat
  second : Nat
  micro : Nat
  complete : Bool

/-- Nothing follows: the text is at its end, or at a NUL. -/
def atEnd : List Char → Bool
  | [] => true
  | c :: _ => c = '\x00'

/-- The microseconds of a fraction, and what follows it. Six digits count; more are
    skipped. With fewer digits nothing else may follow. -/
def fraction? (cs : List Char) : Option (Nat × List Char) := do
  let k := min 6 cs.length
  let (n, rest) ← digits? k cs
  some (n * Nat.pow 10 (6 - k), rest.dropWhile Char.isDigit)

/-- The end of a clock reading: its components, and then a fraction. -/
def withFraction? (hour minute second : Nat) (cs : List Char) : Option Clock :=
  (fraction? cs).map fun (micro, rest) => ⟨hour, minute, second, micro, atEnd rest⟩

/-- What follows a component of a clock reading. -/
inductive Next where
  /-- One ASCII character at most is left. -/
  | stop (complete : Bool)
  /-- The next component, or after the seconds a fraction without mark. -/
  | component (rest : List Char)
  | fraction (rest : List Char)

/-- What follows a component, in a text with or without colons. -/
def next? (colons : Bool) : List Char → Option Next
  | [] => some (.stop true)
  | [c] => if c.toNat < 128 then some (.stop (atEnd [c])) else none
  | c :: rest =>
    if colons && c = ':' then some (.component rest)
    else if c = '.' || c = ',' then some (.fraction rest)
    else if colons then none
    else some (.component (c :: rest))

/-- A reading of the clock: `HH[:MM[:SS]]` or `HH[MM[SS]]`, then perhaps a fraction. -/
def clock? (cs : List Char) : Option Clock := do
  let (hour, rest) ← digits? 2 cs
  let colons := rest.head? == some ':'
  match ← next? colons rest with
  | .stop complete => some ⟨hour, 0, 0, 0, complete⟩
  | .fraction rest => withFraction? hour 0 0 rest
  | .component rest =>
    let (minute, rest) ← digits? 2 rest
    match ← next? colons rest with
    | .stop complete => some ⟨hour, minute, 0, 0, complete⟩
    | .fraction rest => withFraction? hour minute 0 rest
    | .component rest =>
      let (second, rest) ← digits? 2 rest
      match ← next? colons rest with
      | .stop complete => some ⟨hour, minute, second, 0, complete⟩
      | .fraction rest => withFraction? hour minute second rest
      | .component rest => withFraction? hour minute second rest

/-! ## The offset -/

/-- An offset in microseconds, after its sign. Below one second it counts as none. It
    stays under a day. -/
def offset? (negative : Bool) (cs : List Char) : Option Int := do
  let c ← clock? cs
  let seconds := c.hour * 3600 + c.minute * 60 + c.second
  if !c.complete then none
  else if seconds = 0 then some 0
  else
    let total := seconds * DateTime.perSecond + c.micro
    if total < DateTime.perDay then some (if negative then -(total : Int) else total) else none

/-- The character begins an offset. -/
def beginsOffset (c : Char) : Bool :=
  c == '+' || c == '-' || c == 'Z'

/-- A time and its offset, on a given day. -/
def timeOn? (date : Date) (cs : List Char) : Option DateTime := do
  let c ← clock? (cs.takeWhile (!beginsOffset ·))
  let offset ← match cs.dropWhile (!beginsOffset ·) with
    | [] => if c.complete then some none else none
    | 'Z' :: rest => if atEnd rest then some (some 0) else none
    | sign :: rest => (offset? (sign == '-') rest).map some
  let t : DateTime := ⟨date, c.hour, c.minute, c.second, c.micro, offset⟩
  if t.isValid then some t else none

/-- A day, alone or with a time. -/
def read? (cs : List Char) : Option DateTime :=
  if cs.length < 7 then none
  else do
    let k := dayLength cs
    let date ← day? (cs.take k)
    match cs.drop k with
    | [] => some ⟨date, 0, 0, 0, 0, none⟩
    | _ :: time => timeOn? date time

end DocQuery.IsoText
