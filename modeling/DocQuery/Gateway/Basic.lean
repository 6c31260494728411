-- SUMMARY: The gateway: the choice between the server and the database for a pipeline.
import DocQuery.Gateway.Database
import DocQuery.Gateway.Server

/-!
# The gateway

A gateway knows the server, the database, both or neither, and chooses between them by
the mode of a call. In mode `remote` a pipeline runs at the server, in mode
`direct_only` at the database or not at all, and in mode `auto` at the database if it is
available and otherwise at the server. A failure of the one is never retried at the
other.
-/

namespace DocQuery

/-- A gateway. -/
structure Gateway where
  server : Option Server
  database : Option Database

namespace Gateway

/-- There is a database, and it can be used. -/
def isDatabaseAvailable (g : Gateway) : Bool :=
  g.database.any Database.isAvailable

/-- Runs a pipeline at the server. -/
def runAtServer (g : Gateway) (className pipeline : Value) : Run Gateway (List Value) :=
  match g.server with
  | some s => (s.aggregate className pipeline).within fun s => { g with server := some s }
  | none => .still g (.error (.configuration .noRemote))

/-- Runs a pipeline at the database. -/
def runAtDatabase (g : Gateway) (className pipeline : Value) : Run Gateway (List Value) :=
  match g.database with
  | some d => (d.aggregate className pipeline).within fun d => { g with database := some d }
  | none => .still g (.error .mistyped)

/-- Runs a pipeline where the mode says. Mode `direct_only` looks at the database before it
    hands the pipeline over; the database itself looks once more. -/
def run (g : Gateway) (className pipeline : Value) (mode : Mode) : Run Gateway (List Value) :=
  match mode with
  | .remote => g.runAtServer className pipeline
  | .directOnly =>
    match g.database.map Database.ensureAvailable with
    | none => .still g (.error (.unavailable .notConfigured))
    | some (.error e) => .still g (.error e)
    | some (.ok ()) => g.runAtDatabase className pipeline
  | .auto =>
    if g.isDatabaseAvailable then g.runAtDatabase className pipeline
    else g.runAtServer className pipeline

/-- Runs a pipeline where the mode that a caller named says. -/
def execute (g : Gateway) (className pipeline mode : Value) : Run Gateway (List Value) :=
  match Vocabulary.read Mode mode with
  | .ok mode => g.run className pipeline mode
  | .error e => .still g (.error e)

/-- Closes what is open. -/
def close (g : Gateway) : Run Gateway Unit :=
  let server := g.server.map Server.close
  let database := g.database.map Database.close
  { outcome := .ok ()
    after := ⟨server.map (·.after), database.map (·.after)⟩
    calls := server.elim [] (·.calls) ++ database.elim [] (·.calls) }

end Gateway

end DocQuery
