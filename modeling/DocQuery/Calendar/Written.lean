-- SUMMARY: The written forms of days and points in time.
import DocQuery.Calendar.DateTime
import DocQuery.Number.Decimal

/-!
# Written dates

Each date has three written forms: the text with padded fields, the literal that
messages show inside other values, and the wire form in UTC with milliseconds.
-/

namespace DocQuery

open Decimal (padded natText)

/-- `2023-09-15`. -/
def Date.text (d : Date) : String :=
  String.ofList
    (padded 4 d.year ++ '-' :: padded 2 d.month ++ '-' :: padded 2 d.day)

/-- The literal of a day, by its fields. -/
def Date.literal (d : Date) : String :=
  s!"datetime.date({d.year}, {d.month}, {d.day})"

namespace DateTime

/-- A length of time in microseconds, as hours and minutes, and seconds and a fraction
    where there are any. -/
def offsetText (offset : Int) : List Char :=
  let n := offset.natAbs
  let seconds := n / perSecond
  let micro := n % perSecond
  (if offset < 0 then '-' else '+')
    :: padded 2 (seconds / 3600) ++ ':' :: padded 2 (seconds / 60 % 60)
    ++ (if seconds % 60 = 0 ∧ micro = 0 then [] else ':' :: padded 2 (seconds % 60))
    ++ (if micro = 0 then [] else '.' :: padded 6 micro)

/-- Day and time with `separator` between them, a fraction where there is one, and the
    offset where it is known. -/
def text (separator : Char) (t : DateTime) : String :=
  t.date.text ++ String.ofList
    (separator :: padded 2 t.hour ++ ':' :: padded 2 t.minute ++ ':' :: padded 2 t.second
      ++ (if t.micro = 0 then [] else '.' :: padded 6 t.micro)
      ++ (match t.offset with
          | none => []
          | some o => offsetText o))

/-- The literal of an offset. -/
def offsetLiteral (offset : Int) : String :=
  if offset = 0 then "datetime.timezone.utc"
  else
    let days := offset / perDay
    let seconds := offset % perDay / perSecond
    let micro := offset % perSecond
    let part (name : String) (n : Int) := if n = 0 then [] else [s!"{name}={n}"]
    let parts := part "days" days ++ part "seconds" seconds ++ part "microseconds" micro
    "datetime.timezone(datetime.timedelta(" ++ ", ".intercalate parts ++ "))"

/-- The literal of a point in time, by its fields, without seconds and microseconds at
    the end that are zero. -/
def literal (t : DateTime) : String :=
  let fine :=
    if t.micro ≠ 0 then [t.second, t.micro] else if t.second ≠ 0 then [t.second] else []
  let fields := [t.date.year, t.date.month, t.date.day, t.hour, t.minute] ++ fine
  let zone := match t.offset with
    | none => []
    | some o => ["tzinfo=" ++ offsetLiteral o]
  "datetime.datetime(" ++ ", ".intercalate (fields.map toString ++ zone) ++ ")"

/-- The wire form of a UTC reading: milliseconds, the year without padding, and a final
    `Z`. -/
def wireText (t : DateTime) : String :=
  String.ofList
    (natText t.date.year ++ '-' :: padded 2 t.date.month ++ '-' :: padded 2 t.date.day
      ++ 'T' :: padded 2 t.hour ++ ':' :: padded 2 t.minute ++ ':' :: padded 2 t.second
      ++ '.' :: padded 3 (t.micro / 1000) ++ ['Z'])

end DateTime

end DocQuery
