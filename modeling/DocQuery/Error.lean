-- SUMMARY: What can go wrong, by cause, and the wording of each cause.
import DocQuery.Value.Literal
import DocQuery.Vocabulary

/-!
# Errors

An error is a cause with the data that its message shows. Errors fall into families:
values that cannot be converted, queries that cannot be compiled, executors that are
not configured, answers of the server, invalid arguments, and records whose fields were
checked together. The remaining ones have no message of their own.

Each family has a cause `described`, for messages that callers word themselves.
-/

namespace DocQuery

/-! ## Causes -/

/-- Why a search pattern is refused. -/
inductive PatternFault where
  | tooLong (length : Nat) (limit : Value)
  | backtracks (source : Value)

/-- Why a value cannot be converted for its operator. -/
inductive ConversionFault where
  | notIsoDate (given : Value)
  | notTaggedDate (given : Value)
  | epochOutOfRange (seconds : Int)
  | noDate (kind : String)
  | noTruth (kind : String)
  | noCollection (kind : String)
  | noPair
  | noText (kind : String)
  | textTooLong (length limit : Nat)
  | pattern (fault : PatternFault)
  | described (message : String)

/-- Why an argument is invalid. -/
inductive ArgumentFault where
  | notAWord (vocabulary : String) (given : Value)
  | notAnOrdering (given : Value)
  | notAWirePointer (given : Value)
  | notACompactPointer (given : Value)
  | unknownTarget (given : Value)
  | pattern (fault : PatternFault)
  | blankField
  | noClassName
  | noQueries
  | mixedClasses
  | countOfField
  | fieldNeeded (accumulator : Accumulator)
  | unknownTableFormat (given : Value)
  | nanToInt
  | notAnInt (given : Value)
  | intTextTooLong (digits : Nat)
  | intTooLong
  | pairLength (index length : Nat)
  | notTwo (count : Nat)
  | unknownLevel (given : Value)
  | notAFloat (given : Value)
  | notHex (place : Nat)
  | yearOutOfRange (year : Int)
  | partOutOfRange (part : String) (least greatest : Nat)
  | dayOutOfRange
  | offsetOutOfRange (seconds : Int)
  | flagConflict

/-- Why a query cannot be compiled. -/
inductive CompilationFault where
  | negativeSkip (given : Value)
  | negativeLimit (given : Value)
  | described (message : String)

/-- What is missing for an executor. -/
inductive ConfigurationFault where
  | noServerUrl
  | noRemote
  | described (message : String)

/-- Why the database cannot be used. -/
inductive UnavailableFault where
  | notConfigured
  | disabled
  | noUri
  | noDatabase
  | described (message : String)

/-- A step of the path to a field of a record. -/
inductive PathStep where
  | field (name : String)
  | index (i : Nat)
  deriving DecidableEq, Repr

/-- What is wrong with a field of a record. -/
inductive FieldFault where
  | missing
  | unexpected
  | noText
  | brokenText
  | emptyText
  | notAWord
  | noDirection
  | noTruth
  | notATruthText
  | noFloat
  | notAFloatText
  | noList
  | noOrder
  | rule (fault : ArgumentFault)

/-- A field that was refused. -/
structure Refusal where
  path : List PathStep
  fault : FieldFault

/-! ## Errors -/

/-- What can go wrong. -/
inductive Error where
  /-- A value does not fit, in the constraint on `field` with `operator`; null where not
      known. -/
  | conversion (fault : ConversionFault) (field operator : Value)
  | compilation (fault : CompilationFault)
  | configuration (fault : ConfigurationFault)
  | unavailable (fault : UnavailableFault)
  /-- The server answered with an error. -/
  | remote (status code detail : Value)
  | argument (fault : ArgumentFault)
  /-- A record has refused fields. -/
  | refused (refusals : List Refusal)
  /-- The store or the connection to it failed. -/
  | store (message : String)
  /-- An operation met a value of a kind that it is not made for. -/
  | mistyped
  /-- Nothing is kept under a key. -/
  | missingKey
  | indexOutOfRange
  /-- A date or a number leaves its range. -/
  | overflow
  | malformedJson
  /-- A text is no object id. -/
  | malformedId
  /-- A text is no search pattern. -/
  | malformedPattern
  /-- Lists and mappings stand too deep in each other. -/
  | tooDeep
  /-- Bytes stand for no text. -/
  | undecodable
  /-- A row of a table is not a row. -/
  | malformedRow
  /-- An attempt to change what never changes. -/
  | immutable
  /-- A stage that only stands for others. -/
  | abstractStage
  /-- A constraint set holds itself. -/
  | endless

/-! ## Wording -/

/-- The message of a refused pattern. -/
def PatternFault.message : PatternFault → String
  | tooLong n limit => s!"Regex pattern too long ({n} chars, max {limit.display})"
  | backtracks source =>
    "Regex pattern contains constructs prone to catastrophic backtracking: " ++ source.literal

/-- The message of a value that does not fit. -/
def ConversionFault.message : ConversionFault → String
  | notIsoDate v => "not an ISO-8601 date: " ++ v.literal
  | notTaggedDate v => "mapping is not a tagged date: " ++ v.literal
  | epochOutOfRange n => s!"epoch seconds out of range: {n}"
  | noDate kind => "cannot convert " ++ kind ++ " to a date"
  | noTruth kind => "expected a boolean, got " ++ kind
  | noCollection kind => "expected a list of values, got " ++ kind
  | noPair => "expected a [low, high] pair"
  | noText kind => "expected a string, got " ++ kind
  | textTooLong n limit => s!"pattern too long ({n} chars, max {limit})"
  | pattern fault => fault.message
  | described message => message

/-- The literal of a duration in seconds: whole days, and the seconds beyond them. -/
def durationLiteral (seconds : Int) : String :=
  let parts := [("days", seconds / 86400), ("seconds", seconds % 86400)].filter (·.2 != 0)
  Value.call "datetime.timedelta" (parts.map fun (name, n) => s!"{name}={n}")

/-- The message of an invalid argument. -/
def ArgumentFault.message : ArgumentFault → String
  | notAWord vocabulary v => v.literal ++ " is not a valid " ++ vocabulary
  | notAnOrdering v => "Invalid ordering: " ++ v.literal
  | notAWirePointer v => "Not a wire pointer: " ++ v.literal
  | notACompactPointer v => "Not a compact pointer string: " ++ v.literal
  | unknownTarget v =>
    "Unknown encoding target " ++ v.literal ++ "; expected one of ('remote', 'storage')"
  | pattern fault => fault.message
  | blankField => "Constraint field must not be empty"
  | noClassName => "Query needs a class name"
  | noQueries => "At least one query is required"
  | mixedClasses => "All combined queries must be for the same class"
  | countOfField => "use count() to count rows"
  | fieldNeeded accumulator => accumulator.name ++ "() needs a field to aggregate"
  | unknownTableFormat v =>
    "Unsupported format: " ++ v.display ++ ". Use one of ascii, csv, json"
  | nanToInt => "cannot convert float NaN to integer"
  | notAnInt v =>
    "invalid literal for int() with base 10: " ++ String.ofList (v.literal.toList.take 200)
  | intTextTooLong digits =>
    s!"Exceeds the limit (4300 digits) for integer string conversion: value has {digits} digits; "
      ++ "use sys.set_int_max_str_digits() to increase the limit"
  | intTooLong =>
    "Exceeds the limit (4300 digits) for integer string conversion; "
      ++ "use sys.set_int_max_str_digits() to increase the limit"
  | pairLength index length =>
    s!"dictionary update sequence element #{index} has length {length}; 2 is required"
  | notTwo count =>
    if 2 < count then "too many values to unpack (expected 2)"
    else s!"not enough values to unpack (expected 2, got {count})"
  | unknownLevel v => "Unknown level: " ++ v.literal
  | notAFloat v => "could not convert string to float: " ++ v.literal
  | notHex place => s!"non-hexadecimal number found in fromhex() arg at position {place}"
  | yearOutOfRange year => s!"year {year} is out of range"
  | partOutOfRange part least greatest => s!"{part} must be in {least}..{greatest}"
  | dayOutOfRange => "day is out of range for month"
  | offsetOutOfRange seconds =>
    "offset must be a timedelta strictly between -timedelta(hours=24) and timedelta(hours=24), not "
      ++ durationLiteral seconds ++ "."
  | flagConflict => "ASCII and UNICODE flags are incompatible"

/-- The message of a query that cannot be compiled. -/
def CompilationFault.message : CompilationFault → String
  | negativeSkip v => "skip must be >= 0, got " ++ v.display
  | negativeLimit v => "limit must be >= 0, got " ++ v.display
  | described message => message

/-- The message of a missing configuration. -/
def ConfigurationFault.message : ConfigurationFault → String
  | noServerUrl => "Parse server URL is not configured (PARSE_SERVER_URL)"
  | noRemote => "No remote executor configured"
  | described message => message

/-- The message of an unavailable database. -/
def UnavailableFault.message : UnavailableFault → String
  | notConfigured =>
    "Direct MongoDB execution requested but no direct executor is configured"
  | disabled => "Direct MongoDB execution is disabled (MONGO_DIRECT_ENABLED)"
  | noUri => "Direct MongoDB execution requires MONGO_URI"
  | noDatabase => "Direct MongoDB execution requires a database (MONGO_DB)"
  | described message => message

/-- The code of what is wrong with a field. -/
def FieldFault.code : FieldFault → String
  | missing => "missing"
  | unexpected => "extra_forbidden"
  | noText => "string_type"
  | brokenText => "string_unicode"
  | emptyText => "string_too_short"
  | notAWord => "enum"
  | noDirection => "literal_error"
  | noTruth => "bool_type"
  | notATruthText => "bool_parsing"
  | noFloat => "float_type"
  | notAFloatText => "float_parsing"
  | noList => "list_type"
  | noOrder => "model_type"
  | rule _ => "value_error"

/-- The message of a broken rule; the other faults are told by their code. -/
def FieldFault.message? : FieldFault → Option String
  | rule fault => some ("Value error, " ++ fault.message)
  | _ => none

/-- What a conversion error says in front of its cause. -/
def Error.conversionLead (field operator : Value) : String :=
  match field, operator with
  | .null, _ => ""
  | f, .null => "Invalid value for \"" ++ f.display ++ "\": "
  | f, op =>
    "Invalid value for \"" ++ f.display ++ "\" with operator \"" ++ op.display ++ "\": "

/-- The message of an error. The errors without data say nothing. -/
def Error.message : Error → String
  | conversion fault field operator => conversionLead field operator ++ fault.message
  | compilation fault => fault.message
  | configuration fault => fault.message
  | unavailable fault => fault.message
  | remote status code detail =>
    "Remote aggregation failed (" ++ status.display ++ ", code=" ++ code.display ++ "): "
      ++ detail.display
  | argument fault => fault.message
  | store message => message
  | _ => ""

/-! ## Texts within the limit -/

/-- What is made of the text of a value. There is no text of a value that holds a whole number
    with too many digits. -/
def Value.whenWritable {α : Type} (v : Value) (a : α) : Except Error α :=
  if v.digits ≤ Whole.maxDigits then .ok a else .error (.argument .intTooLong)

/-- The error whose message shows a value. Where the value has no text, the message fails and
    not what it was to tell. -/
def Error.showing (e : Error) (v : Value) : Error :=
  if v.digits ≤ Whole.maxDigits then e else .argument .intTooLong

/-! ## Reading words -/

/-- The word that a value names. -/
def Vocabulary.read (α : Type) [Vocabulary α] (v : Value) : Except Error α :=
  match v.text?.bind (Vocabulary.ofName? α) with
  | some w => .ok w
  | none => .error ((Error.argument (.notAWord (Vocabulary.title α) v)).showing v)

end DocQuery
