-- SUMMARY: The closed vocabularies of queries: operators, accumulators, date units and execution modes.

/-!
# Vocabularies

A query names what it wants by the words of four vocabularies. Each word is a
constructor with a name, and the names are all that callers may write.
-/

namespace DocQuery

/-- A closed list of named words. -/
class Vocabulary (α : Type) where
  /-- What the vocabulary is called in messages. -/
  title : String
  words : List α
  name : α → String

/-- The word with a name. -/
def Vocabulary.ofName? (α : Type) [Vocabulary α] (s : String) : Option α :=
  (Vocabulary.words : List α).find? fun w => Vocabulary.name w == s

/-! ## Operators -/

/-- How a constraint compares a field with its value. -/
inductive Operator where
  | equal
  | notEqual
  | greater
  | atLeast
  | less
  | atMost
  | present
  | oneOf
  | noneOf
  | allOf
  | contains
  | startsWith
  | endsWith
  | like
  | before
  | after
  | onOrBefore
  | onOrAfter
  | between
  | betweenDates
  deriving DecidableEq, Repr

namespace Operator

/-- The name of an operator. -/
def name : Operator → String
  | equal => "eq"
  | notEqual => "ne"
  | greater => "gt"
  | atLeast => "gte"
  | less => "lt"
  | atMost => "lte"
  | present => "exists"
  | oneOf => "in"
  | noneOf => "nin"
  | allOf => "all"
  | contains => "contains"
  | startsWith => "starts_with"
  | endsWith => "ends_with"
  | like => "like"
  | before => "before"
  | after => "after"
  | onOrBefore => "on_or_before"
  | onOrAfter => "on_or_after"
  | between => "between"
  | betweenDates => "between_dates"

/-- All operators. -/
def words : List Operator :=
  [equal, notEqual, greater, atLeast, less, atMost, present, oneOf, noneOf, allOf, contains,
    startsWith, endsWith, like, before, after, onOrBefore, onOrAfter, between, betweenDates]

instance : Vocabulary Operator := ⟨"Operator", words, name⟩

end Operator

/-! ## Accumulators -/

/-- What is computed over the rows of a group. -/
inductive Accumulator where
  | count
  | sum
  | average
  | min
  | max
  deriving DecidableEq, Repr

namespace Accumulator

/-- The name of an accumulator. -/
def name : Accumulator → String
  | count => "count"
  | sum => "sum"
  | average => "average"
  | min => "min"
  | max => "max"

instance : Vocabulary Accumulator := ⟨"Accumulator", [count, sum, average, min, max], name⟩

/-- The store's operator for an accumulator. Rows are counted by summing ones. -/
def storeOperator : Accumulator → String
  | count => "$sum"
  | sum => "$sum"
  | average => "$avg"
  | min => "$min"
  | max => "$max"

end Accumulator

/-! ## Date units -/

/-- The length of a calendar interval. -/
inductive DateUnit where
  | year
  | month
  | week
  | day
  | hour
  | minute
  | second
  deriving DecidableEq, Repr

namespace DateUnit

/-- The name of a unit. -/
def name : DateUnit → String
  | year => "year"
  | month => "month"
  | week => "week"
  | day => "day"
  | hour => "hour"
  | minute => "minute"
  | second => "second"

instance : Vocabulary DateUnit :=
  ⟨"DateUnit", [year, month, week, day, hour, minute, second], name⟩

/-- The components of the key of an interval, from coarse to fine. A week is a week of a
    year; every other interval is named by all coarser units but the week. -/
def keyParts : DateUnit → List DateUnit
  | year => [year]
  | month => [year, month]
  | week => [year, week]
  | day => [year, month, day]
  | hour => [year, month, day, hour]
  | minute => [year, month, day, hour, minute]
  | second => [year, month, day, hour, minute, second]

/-- The store's operator for a component of a date. -/
def storeOperator : DateUnit → String
  | year => "$year"
  | month => "$month"
  | week => "$isoWeek"
  | day => "$dayOfMonth"
  | hour => "$hour"
  | minute => "$minute"
  | second => "$second"

end DateUnit

/-! ## Execution modes -/

/-- Where a pipeline runs. -/
inductive Mode where
  /-- At the server. -/
  | remote
  /-- At the database when it is available, otherwise at the server. -/
  | auto
  /-- At the database or not at all. -/
  | directOnly
  deriving DecidableEq, Repr

namespace Mode

/-- The name of a mode. -/
def name : Mode → String
  | remote => "remote"
  | auto => "auto"
  | directOnly => "direct_only"

instance : Vocabulary Mode := ⟨"ExecutionMode", [remote, auto, directOnly], name⟩

/-- The mode of a call that may go to the database, or must not. -/
def ofDirect (allowed : Bool) : Mode :=
  if allowed then auto else remote

end Mode

end DocQuery
