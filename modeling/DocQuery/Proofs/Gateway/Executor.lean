-- SUMMARY: What one pipeline does at the server and at the database: which calls it makes, and when none.
import DocQuery.Gateway.Basic

/-!
# Executors

Inversion lemmas for the server and the database. A pipeline either makes no call and ends
in an error, or it is sent exactly once. The database checks its availability in three
places; the lemmas of the first section say that they agree.
-/

namespace DocQuery

/-! ## Availability -/

namespace Database

/-- The condition that modes look at, and the checks that name what is missing, agree. -/
theorem isAvailable_eq_isNone_fault? (d : Database) : d.isAvailable = d.fault?.isNone := by
  unfold isAvailable fault?
  cases d.enabled.isGiven <;> cases d.connection <;> cases d.uri.isGiven <;>
    cases d.name.isGiven <;> rfl

theorem ensureAvailable_of_isAvailable {d : Database} (h : d.isAvailable = true) :
    d.ensureAvailable = .ok () := by
  rw [isAvailable_eq_isNone_fault?, Option.isNone_iff_eq_none] at h
  simp [ensureAvailable, h]

/-- A database that cannot be used says what is missing. -/
theorem ensureAvailable_of_not_isAvailable {d : Database} (h : d.isAvailable = false) :
    ∃ fault, d.ensureAvailable = .error (.unavailable fault) := by
  rw [isAvailable_eq_isNone_fault?, Option.isNone_eq_false_iff, Option.isSome_iff_exists] at h
  obtain ⟨fault, hfault⟩ := h
  exact ⟨fault, by simp [ensureAvailable, hfault]⟩

end Database

/-! ## Calls -/

namespace Call

/-- The call goes to the server. -/
def isServer : Call → Bool
  | request .. => true
  | closeServer => true
  | _ => false

/-- The call goes to the database. -/
def isDatabase : Call → Bool
  | query .. => true
  | connect _ => true
  | closeDatabase => true
  | _ => false

/-- The call sends a pipeline. -/
def sendsPipeline : Call → Bool
  | request .. => true
  | query .. => true
  | _ => false

end Call

/-- The run makes no call, changes no connection and fails. -/
structure Run.IsQuiet (connected : σ → Bool) (before : σ) (r : Run σ α) : Prop where
  calls : r.calls = []
  connection : connected r.after = connected before
  fails : ∃ e, r.outcome = .error e

/-! ## The database -/

namespace Database

/-- The database holds an open connection. -/
def isConnected (d : Database) : Bool :=
  d.connection.isSome

/-- The call that opens a connection, when there is none. -/
def openingCalls (d : Database) : List Call :=
  if d.isConnected then [] else [.connect d.uri]

/-- The calls for some stages all go to the database. -/
theorem isDatabase_of_mem_sent {d : Database} {c : Value} {stages : List Value} {call : Call}
    (h : call ∈ d.openingCalls ++ [.query d.name c stages]) :
    call.isDatabase = true ∧ call.isServer = false := by
  rcases List.mem_append.mp h with hopen | hquery
  · unfold openingCalls at hopen
    split at hopen
    · cases hopen
    · cases List.mem_singleton.mp hopen
      exact ⟨rfl, rfl⟩
  · cases List.mem_singleton.mp hquery
    exact ⟨rfl, rfl⟩

theorem length_filter_sendsPipeline_sent (d : Database) (c : Value) (stages : List Value) :
    ((d.openingCalls ++ [Call.query d.name c stages]).filter Call.sendsPipeline).length = 1 := by
  unfold openingCalls
  split <;> rfl

/-- Encoded stages are sent once, over the open connection or over a new one; they are not
    sent when no connection can be opened. -/
theorem send_cases (d : Database) (c : Value) (stages : List Value) :
    (d.send c stages).IsQuiet isConnected d ∨
      ((d.send c stages).calls = d.openingCalls ++ [.query d.name c stages] ∧
        (d.send c stages).after.isConnected = true) := by
  cases hconn : d.connection with
  | some replies =>
    right
    simp [send, hconn, openingCalls, isConnected, query]
  | none =>
    cases hopen : d.openings.next.1 with
    | connection replies =>
      right
      simp [send, hconn, hopen, openingCalls, isConnected, query]
    | failure message =>
      left
      exact ⟨by simp [send, hconn, hopen, Run.still],
        by simp [send, hconn, hopen, Run.still, isConnected],
        ⟨.store message, by simp [send, hconn, hopen, Run.still]⟩⟩

theorem aggregate_of_not_isAvailable {d : Database} (h : d.isAvailable = false) (c p : Value) :
    ∃ fault, d.aggregate c p = .still d (.error (.unavailable fault)) := by
  obtain ⟨fault, hfault⟩ := ensureAvailable_of_not_isAvailable h
  exact ⟨fault, by simp [aggregate, hfault]⟩

theorem aggregate_of_unencodable {d : Database} {p : Value} {e : Error}
    (hp : Encoding.pipeline .storage p = .error e) (c : Value) :
    ∃ e', d.aggregate c p = .still d (.error e') := by
  cases hd : d.ensureAvailable with
  | error e' => exact ⟨e', by simp [aggregate, hd]⟩
  | ok _ => exact ⟨e, by simp [aggregate, hd, hp]⟩

/-- A pipeline makes no call, or the database can be used and the encoded stages are sent
    once. -/
theorem aggregate_cases (d : Database) (c p : Value) :
    (d.aggregate c p).IsQuiet isConnected d ∨
      (d.isAvailable = true ∧ ∃ stages, Encoding.pipeline .storage p = .ok stages ∧
        (d.aggregate c p).calls = d.openingCalls ++ [.query d.name c stages] ∧
        (d.aggregate c p).after.isConnected = true) := by
  cases havail : d.isAvailable with
  | false =>
    obtain ⟨fault, hfault⟩ := aggregate_of_not_isAvailable havail c p
    left
    rw [hfault]
    exact ⟨rfl, rfl, ⟨_, rfl⟩⟩
  | true =>
    cases hp : Encoding.pipeline .storage p with
    | error e =>
      obtain ⟨e', he'⟩ := aggregate_of_unencodable hp c (d := d)
      left
      rw [he']
      exact ⟨rfl, rfl, ⟨_, rfl⟩⟩
    | ok stages =>
      have hsend : d.aggregate c p = d.send c stages := by
        simp [aggregate, ensureAvailable_of_isAvailable havail, hp]
      rw [hsend]
      rcases send_cases d c stages with hquiet | ⟨hcalls, hconn⟩
      · exact .inl hquiet
      · exact .inr ⟨rfl, stages, rfl, hcalls, hconn⟩

end Database

/-! ## The server -/

namespace Server

theorem pipelineText_of_unencodable {p : Value} {e : Error}
    (hp : Encoding.pipeline .remote p = .error e) : pipelineText p = .error e := by
  simp only [pipelineText, hp]
  rfl

/-- A pipeline makes no call and changes nothing, or it is sent in one request. -/
theorem aggregate_cases (s : Server) (c p : Value) :
    (∃ e, pipelineText p = .error e ∧ s.aggregate c p = .still s (.error e)) ∨
      ∃ text, pipelineText p = .ok text ∧
        (s.aggregate c p).calls = [.request (s.endpoint c) s.headers text] := by
  cases hp : pipelineText p with
  | error e => exact .inl ⟨e, rfl, by simp [aggregate, hp]⟩
  | ok text => exact .inr ⟨text, rfl, by simp [aggregate, hp, send]⟩

end Server

end DocQuery
