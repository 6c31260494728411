-- SUMMARY: The database behind the server: availability, connections and pipelines.
import DocQuery.Document
import DocQuery.Encoding.Stage
import DocQuery.Gateway.Call

/-!
# The database

A pipeline may run at the database behind the server, if that was enabled, there is a
connection or a connection string to open one, and the database is known by name. The
documents that come back are brought into wire form, so callers see the same rows as
from the server.

The connection is opened with the first pipeline, and once more after it was closed.
-/

namespace DocQuery

/-! ## Connection strings -/

namespace ConnectionString

/-- The schemes of connection strings. -/
def schemes : List String := ["mongodb://", "mongodb+srv://"]

/-- The database that the code points after the scheme name: what follows the first slash,
    up to a question mark. -/
def pathName? (ps : List Text.CodePoint) : Option (List Text.CodePoint) :=
  let host := ps.takeWhile (· != .char '/')
  let name := ((ps.dropWhile (· != .char '/')).drop 1).takeWhile (· != .char '?')
  if host.isEmpty || name.isEmpty then none else some name

/-- The database that a connection string names. -/
def databaseName? (uri : List Text.CodePoint) : Option (List Text.CodePoint) :=
  (schemes.find? fun scheme => (Text.CodePoint.ofText scheme).isPrefixOf uri).bind fun scheme =>
    pathName? (uri.drop scheme.length)

/-- The database that a connection string names, null when there is none. -/
def database (uri : Value) : Except Error Value :=
  if uri.isGiven then
    match uri.points? with
    | some ps => .ok ((databaseName? ps).elim .null .ofPoints)
    | none => .error .mistyped
  else .ok .null

end ConnectionString

/-! ## The database -/

/-- A reply of the database. -/
inductive DatabaseReply where
  | documents (docs : List Value)
  /-- The pipeline failed. -/
  | failure (message : String)

/-- The wire forms of the documents of a reply. -/
def DatabaseReply.rows : DatabaseReply → Except Error (List Value)
  | documents docs => docs.mapM fun doc => Document.toWire doc .null
  | failure message => .error (.store message)

/-- What comes of an attempt to open a connection. -/
inductive Opening where
  /-- A connection that will give these replies. -/
  | connection (replies : Replies DatabaseReply)
  /-- No connection can be opened. -/
  | failure (message : String)

/-- The database: how it is reached, its open connection, and what comes of opening new
    ones. -/
structure Database where
  uri : Value
  name : Value
  enabled : Value
  connection : Option (Replies DatabaseReply)
  openings : Replies Opening

namespace Database

/-- The database with a connection string and perhaps a name of its own. Every connection
    gives the same replies, from the first on. -/
def make (uri name enabled : Value) (connected : Bool) (replies : Replies DatabaseReply) :
    Except Error Database := do
  let name ← if name.isGiven then .ok name else ConnectionString.database uri
  .ok ⟨uri, name, enabled, if connected then some replies else none,
    .ofList (.connection replies) []⟩

/-- What keeps the database from being used, if anything. -/
def fault? (d : Database) : Option UnavailableFault :=
  if !d.enabled.isGiven then some .disabled
  else if d.connection.isNone && !d.uri.isGiven then some .noUri
  else if !d.name.isGiven then some .noDatabase
  else none

/-- The database can be used: it is enabled and known by name, and there is a connection
    or a way to open one. -/
def isAvailable (d : Database) : Bool :=
  d.enabled.isGiven && (d.connection.isSome || d.uri.isGiven) && d.name.isGiven

/-- Fails when the database cannot be used. -/
def ensureAvailable (d : Database) : Except Error Unit :=
  match d.fault? with
  | some fault => .error (.unavailable fault)
  | none => .ok ()

/-- Runs the stages of an encoded pipeline over a collection, by a connection with some
    replies. `opened` are the calls that opened it. -/
def query (d : Database) (replies : Replies DatabaseReply) (opened : List Call)
    (collection : Value) (stages : List Value) : Run Database (List Value) :=
  let (reply, rest) := replies.next
  { outcome := reply.rows
    after := { d with connection := some rest }
    calls := opened ++ [.query d.name collection stages] }

/-- Runs the stages of an encoded pipeline over a collection, by the open connection or by
    a new one. -/
def send (d : Database) (collection : Value) (stages : List Value) :
    Run Database (List Value) :=
  match d.connection with
  | some replies => d.query replies [] collection stages
  | none =>
    let (opening, openings) := d.openings.next
    let d := { d with openings := openings }
    match opening with
    | .connection replies => d.query replies [.connect d.uri] collection stages
    | .failure message => .still d (.error (.store message))

/-- Runs a pipeline over a class. -/
def aggregate (d : Database) (className pipeline : Value) : Run Database (List Value) :=
  match d.ensureAvailable, Encoding.pipeline .storage pipeline with
  | .error e, _ => .still d (.error e)
  | .ok _, .error e => .still d (.error e)
  | .ok _, .ok stages => d.send className stages

/-- Ends the connection, if there is one. -/
def close (d : Database) : Run Database Unit :=
  match d.connection with
  | some _ => ⟨.ok (), { d with connection := none }, [.closeDatabase]⟩
  | none => .still d (.ok ())

end Database

end DocQuery
