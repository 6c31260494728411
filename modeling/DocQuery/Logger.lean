-- SUMMARY: Loggers: their level and the one handler that they get when they are set up.
import DocQuery.Error

/-!
# Loggers

A logger is set up with a level, given as a number or by name. The first time it also
gets a handler with the same level; setting it up again changes the level of the logger
only. A level that is none leaves the logger as it was.
-/

namespace DocQuery

/-- A logger. -/
structure Logger where
  level : Value
  /-- The level of the handler, once there is one. -/
  handlerLevel : Option Value

namespace Logger

/-- The logger before it is set up. -/
def fresh : Logger := ⟨.int 0, none⟩

/-- How a line of a log is written. -/
def lineFormat : String :=
  "%(asctime)s - %(name)s - %(levelname)s - %(message)s"

/-- How the time in a line is written. -/
def timeFormat : String :=
  "%Y-%m-%d %H:%M:%S"

/-- The levels by name. -/
def levels : List (String × Int) :=
  [("CRITICAL", 50), ("FATAL", 50), ("ERROR", 40), ("WARN", 30), ("WARNING", 30), ("INFO", 20),
    ("DEBUG", 10), ("NOTSET", 0)]

/-- The level that a value stands for. A truth value counts as a number. -/
def levelOf (v : Value) : Except Error Value :=
  match v with
  | .int n => .ok (.int n)
  | .bool b => .ok (.bool b)
  | .text s =>
    match levels.lookup s with
    | some n => .ok (.int n)
    | none => .error (.argument (.unknownLevel v))
  | _ => .error .mistyped

/-- The number of handlers. -/
def handlerCount (l : Logger) : Nat :=
  if l.handlerLevel.isSome then 1 else 0

/-- The logger set up with a level, or with `default` where none is given. -/
def setUp (l : Logger) (default : String) (level : Value) : Except Error Logger := do
  let level ← levelOf (match level with
    | .null => .text default
    | v => v)
  .ok ⟨level, some (l.handlerLevel.getD level)⟩

end Logger

end DocQuery
