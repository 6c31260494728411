-- SUMMARY: Settings: read from arguments and variables, and the gateway that they describe.
import DocQuery.Gateway.Basic
import DocQuery.Record

/-!
# Settings

Every setting has a name, a kind and a default. It is taken from an argument or else from
a variable; their names are the same in letters of either case. All settings are checked
together, and arguments that are no settings are ignored.
-/

namespace DocQuery

/-- The settings of the library. -/
structure Settings where
  serverUrl : String
  applicationId : String
  restApiKey : Option String
  masterKey : Option String
  requestTimeout : Binary64
  databaseUri : Option String
  databaseName : Option String
  directEnabled : Bool
  logLevel : String

namespace Settings

/-! ## Numbers -/

/-- A text without underscores, if none stands at an end or beside another. -/
def ungrouped? (cs : List Char) : Option (List Char) :=
  if cs.head? == some '_' || cs.getLast? == some '_' || hasPair cs then none
  else some (cs.filter (· != '_'))
where
  /-- Two underscores stand side by side. -/
  hasPair : List Char → Bool
    | c :: d :: rest => (c == '_' && d == '_') || hasPair (d :: rest)
    | _ => false

/-- A floating point number from its text: with spaces around, or with underscores
    between its characters. -/
def floatOfChars? (cs : List Char) : Option Binary64 :=
  match Binary64.ofText? (Text.trim Text.isWhite cs) with
  | some x => some x
  | none => (ungrouped? cs).bind Binary64.ofText?

/-- A whole number as a floating point number, unless it is too large. -/
def floatOfInt (n : Int) : Except FieldFault Binary64 :=
  match Binary64.ofInt n with
  | .infinite _ => .error .noFloat
  | x => .ok x

/-- A floating point number, as such, as another number, or as its text. -/
def floatOf (v : Value) : Except FieldFault Binary64 :=
  let reading (cs : List Char) := match floatOfChars? cs with
    | some x => .ok x
    | none => .error FieldFault.notAFloatText
  match v with
  | .float x => .ok x
  | .int n => floatOfInt n
  | .bool b => floatOfInt b.toNat
  | .text s => reading s.toList
  | .tagKey k => reading k.text.toList
  | .bytes bs => (Text.ofBytes? bs).elim (.error .notAFloatText) fun s => reading s.toList
  | _ => .error .noFloat

/-- A setting that is a floating point number. -/
def float (name : String) (v : Value) : Checked Binary64 :=
  match floatOf v with
  | .ok x => .ok x
  | .error fault => Record.refuse name fault

/-! ## Reading -/

/-- The names are the same in letters of either case. -/
def isNamed (name k : String) : Bool :=
  Text.lower k.toList == Text.lower name.toList

/-- An argument, by its name; of several the first. -/
def argument? (args : Record.Args) (name : String) : Option Value :=
  (args.find? fun (k, _) => isNamed name k).map (·.2)

/-- A variable, by its name; of several the last. -/
def environmentText? (env : List (String × String)) (name : String) : Option String :=
  (env.reverse.find? fun (k, _) => isNamed name k).map (·.2)

/-- The value that is given for a setting: an argument before a variable. -/
def given (args : Record.Args) (env : List (String × String)) (name : String) : Record.Args :=
  match argument? args name, environmentText? env name with
  | some v, _ => [(name, v)]
  | none, some s => [(name, .text s)]
  | none, none => []

/-- A setting: checked when it is given, otherwise its default. -/
def setting (args : Record.Args) (env : List (String × String)) (name : String) (default : α)
    (check : String → Value → Checked α) : Checked α :=
  Record.field (given args env name) name (some default) check

/-- The address of a server on the same machine. -/
def localServer : String := "http://localhost:1337/parse"

/-- The time that a request may take, in seconds. -/
def defaultTimeout : Binary64 := .ofInt 30

/-- The settings that arguments and variables describe. -/
def load (env : List (String × String)) (args : Record.Args) : Except Error Settings :=
  let checked :=
    (setting args env "PARSE_SERVER_URL" localServer Record.text).and <|
    (setting args env "PARSE_APP_ID" "" Record.text).and <|
    (setting args env "PARSE_REST_API_KEY" none Record.optionalText).and <|
    (setting args env "PARSE_MASTER_KEY" none Record.optionalText).and <|
    (setting args env "REQUEST_TIMEOUT" defaultTimeout float).and <|
    (setting args env "MONGO_URI" none Record.optionalText).and <|
    (setting args env "MONGO_DB" none Record.optionalText).and <|
    (setting args env "MONGO_DIRECT_ENABLED" false Record.truth).and <|
    setting args env "LOG_LEVEL" "INFO" Record.text
  checked.toExcept.map
    fun (serverUrl, applicationId, restApiKey, masterKey, requestTimeout, databaseUri,
        databaseName, directEnabled, logLevel) =>
      { serverUrl, applicationId, restApiKey, masterKey, requestTimeout, databaseUri
        databaseName, directEnabled, logLevel }

/-! ## The gateway -/

/-- A text that may be missing, as a value. -/
def optionalValue (s : Option String) : Value :=
  s.elim .null .text

/-- How the server is reached. -/
def access (s : Settings) : Server.Access :=
  { url := .text s.serverUrl
    applicationId := .text s.applicationId
    restApiKey := optionalValue s.restApiKey
    masterKey := optionalValue s.masterKey }

/-- The gateway that the settings describe. It knows the database only when that is
    enabled. -/
def gateway (s : Settings) (serverReplies : Replies ServerReply)
    (databaseReplies : Replies DatabaseReply) : Except Error Gateway := do
  let database ←
    if s.directEnabled then
      (Database.make (optionalValue s.databaseUri) (optionalValue s.databaseName)
        (.bool s.directEnabled) false databaseReplies).map some
    else .ok none
  let server ← Server.ofAccess s.access serverReplies
  .ok ⟨some server, database⟩

end Settings

end DocQuery
