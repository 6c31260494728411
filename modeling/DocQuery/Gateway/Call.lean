-- SUMMARY: Calls to the outside, the replies that wait for them, and what a run leaves.
import DocQuery.Error

/-!
# Calls and replies

Pipelines run outside of this library. What goes out is kept as a list of calls, and
what comes back is a row of replies: each call takes the next one, and the last one
answers all further calls.

A run yields an outcome, leaves the thing it ran on in a new state, and has made some
calls. The calls are part of the run whether it fails or not.
-/

namespace DocQuery

/-- A call to the outside. -/
inductive Call where
  /-- A request for an address, with headers and the text of a pipeline. -/
  | request (url : String) (headers : List (String × Value)) (pipeline : String)
  /-- A pipeline for a collection of a database. -/
  | query (database collection : Value) (pipeline : List Value)
  /-- A connection to a database is opened. -/
  | connect (uri : Value)
  | closeServer
  | closeDatabase

/-- Replies in the order in which they are taken; the last one stays. -/
structure Replies (α : Type u) where
  current : α
  later : List α

namespace Replies

/-- The reply to the next call, and the replies after it. -/
def next (r : Replies α) : α × Replies α :=
  match r.later with
  | [] => (r.current, r)
  | a :: later => (r.current, ⟨a, later⟩)

/-- The replies of a list; without any, `default` answers all calls. -/
def ofList (default : α) : List α → Replies α
  | [] => ⟨default, []⟩
  | a :: later => ⟨a, later⟩

end Replies

/-- What a run leaves: an outcome, the thing it ran on, and the calls that it made. -/
structure Run (σ α : Type) where
  outcome : Except Error α
  after : σ
  calls : List Call

namespace Run

/-- A run that makes no call and changes nothing. -/
def still (s : σ) (outcome : Except Error α) : Run σ α :=
  ⟨outcome, s, []⟩

/-- The run with another outcome. -/
def mapOutcome (f : Except Error α → Except Error β) (r : Run σ α) : Run σ β :=
  ⟨f r.outcome, r.after, r.calls⟩

/-- The run as a run on a larger thing. -/
def within (f : σ → τ) (r : Run σ α) : Run τ α :=
  ⟨r.outcome, f r.after, r.calls⟩

end Run

end DocQuery
