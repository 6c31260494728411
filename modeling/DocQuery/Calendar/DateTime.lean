-- SUMMARY: Points in time: a day, a clock reading and perhaps an offset from UTC.
import DocQuery.Calendar.Date

/-!
# Points in time

A clock reading alone says when something happened only if its offset from UTC is
known. Readings are counted in microseconds from the start of the calendar; the
instant of a reading is its count less its offset.
-/

namespace DocQuery

/-- A day and a reading of the clock. The offset is the number of microseconds by which
    the clock is ahead of UTC, when it is known. -/
structure DateTime where
  date : Date
  hour : Nat
  minute : Nat
  second : Nat
  micro : Nat
  offset : Option Int
  deriving DecidableEq, Repr

namespace DateTime

/-- The microseconds of a second. -/
def perSecond : Nat := 1000000

/-- The microseconds of a day. -/
def perDay : Nat := 86400 * perSecond

/-- The reading exists. -/
def isValid (t : DateTime) : Bool :=
  t.date.isValid && t.hour < 24 && t.minute < 60 && t.second < 60 && t.micro < perSecond

/-- The reading in microseconds from the start of the calendar. -/
def reading (t : DateTime) : Nat :=
  t.date.number * perDay + (t.hour * 3600 + t.minute * 60 + t.second) * perSecond + t.micro

/-- The clock at `n` microseconds from the start of the calendar. -/
def ofReading (n : Nat) (offset : Option Int) : DateTime :=
  let inDay := n % perDay
  let seconds := inDay / perSecond
  { date := Date.ofNumber (n / perDay)
    hour := seconds / 3600
    minute := seconds / 60 % 60
    second := seconds % 60
    micro := inDay % perSecond
    offset := offset }

/-- The instant of a reading with a known offset, in microseconds of UTC from the start
    of the calendar. -/
def instant? (t : DateTime) : Option Int :=
  t.offset.map fun o => t.reading - o

/-- The UTC reading at an instant, when the instant falls into the calendar. -/
def utcAt? (instant : Int) : Option DateTime :=
  if 0 ≤ instant ∧ instant < Calendar.dayCount * perDay then
    some (ofReading instant.toNat (some 0))
  else none

/-- The same instant as a UTC reading. A reading without offset counts as UTC. None when
    the instant falls out of the calendar. -/
def toUtc? (t : DateTime) : Option DateTime :=
  match t.offset with
  | none => some { t with offset := some 0 }
  | some o => if o = 0 then some t else utcAt? (t.reading - o)

/-- Midnight UTC of a day. -/
def midnight (d : Date) : DateTime :=
  ⟨d, 0, 0, 0, 0, some 0⟩

/-- The start of 1970, in seconds from the start of the calendar. -/
def epochSecond : Nat := (Date.mk 1970 1 1).number * 86400

/-- The UTC reading `n` seconds after the start of 1970. -/
def ofEpoch? (n : Int) : Option DateTime :=
  utcAt? ((n + epochSecond) * perSecond)

end DateTime

end DocQuery
