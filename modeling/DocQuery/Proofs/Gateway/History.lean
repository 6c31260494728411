-- SUMMARY: Whole runs of a gateway: which executor each step calls, and how connections are opened and closed.
import DocQuery.Proofs.Gateway.Executor

/-!
# Histories of a gateway

Callers execute pipelines in any mode, check the database and close the gateway, in any
order, and every call may fail. The main result says which calls each step of such a
history makes, and that over the whole history connections to the database are opened only
when there is none, and used and closed only while there is one.
-/

namespace DocQuery.Gateway

/-! ## Steps and histories -/

/-- What a caller does with a gateway. -/
inductive Step where
  | execute (className pipeline : Value) (mode : Mode)
  | ensure
  | close

/-- One step. Checks and closing yield no rows; without a database there is nothing to
    check. -/
def step (g : Gateway) : Step → Run Gateway (List Value)
  | .execute className pipeline mode => g.execute className pipeline (.text mode.name)
  | .ensure =>
    .still g (match g.database with
      | some d => d.ensureAvailable.map fun _ => []
      | none => .error .mistyped)
  | .close => g.close.mapOutcome (·.map fun _ => [])

/-- A step, and the gateway that it was taken on. -/
structure Event where
  before : Gateway
  step : Step

/-- What the step of an event does. -/
def Event.run (e : Event) : Run Gateway (List Value) :=
  e.before.step e.step

/-- The events of a sequence of steps. -/
def history (g : Gateway) : List Step → List Event
  | [] => []
  | s :: steps => ⟨g, s⟩ :: history (g.step s).after steps

/-- The gateway after a sequence of steps. -/
def afterAll (g : Gateway) (steps : List Step) : Gateway :=
  steps.foldl (fun g s => (g.step s).after) g

/-- All calls of a history, in order. -/
def allCalls (events : List Event) : List Call :=
  events.flatMap fun e => e.run.calls

/-! ## Connections -/

/-- There is an open connection to the database. -/
def isConnected (g : Gateway) : Bool :=
  g.database.any Database.isConnected

/-- Whether a connection is open after a call, when the call fits: connections are opened
    only when there is none, and used and closed only when there is one. -/
def connectedAfter? (connected : Bool) : Call → Option Bool
  | .connect _ => if connected then none else some true
  | .query .. => if connected then some true else none
  | .closeDatabase => if connected then some false else none
  | .request .. => some connected
  | .closeServer => some connected

/-- Whether a connection is open after some calls, when each of them fits. -/
def connectedAfterAll? (connected : Bool) (calls : List Call) : Option Bool :=
  calls.foldlM connectedAfter? connected

theorem connectedAfterAll?_append (connected : Bool) (xs ys : List Call) :
    connectedAfterAll? connected (xs ++ ys) =
      (connectedAfterAll? connected xs).bind (connectedAfterAll? · ys) := by
  simp only [connectedAfterAll?, List.foldlM_append]
  rfl

/-! ## What one step may do -/

/-- The target of a pipeline: mode `auto` turns to the database when there is one that can
    be used just now. -/
def target (g : Gateway) : Mode → Target
  | .remote => .remote
  | .directOnly => .storage
  | .auto => if g.isDatabaseAvailable then .storage else .remote

/-- The rules that an event keeps. -/
structure Event.IsSafe (e : Event) : Prop where
  /-- A pipeline is sent once at most. -/
  once : ∀ c p m, e.step = .execute c p m → (e.run.calls.filter Call.sendsPipeline).length ≤ 1
  /-- A pipeline is not handed from one executor to the other. -/
  oneExecutor : ∀ c p m, e.step = .execute c p m →
    (∀ call ∈ e.run.calls, call.isServer = true) ∨ (∀ call ∈ e.run.calls, call.isDatabase = true)
  remote : ∀ c p, e.step = .execute c p .remote → ∀ call ∈ e.run.calls, call.isDatabase = false
  directOnly : ∀ c p, e.step = .execute c p .directOnly →
    ∀ call ∈ e.run.calls, call.isServer = false
  /-- For the storage target the step is a run of the database: it makes the same calls and
      has the same outcome, an error included. -/
  atDatabase : ∀ c p m d, e.step = .execute c p m → e.before.target m = .storage →
    e.before.database = some d → d.isAvailable = true →
    e.run.calls = (d.aggregate c p).calls ∧ e.run.outcome = (d.aggregate c p).outcome
  /-- For the remote target it is a run of the server. -/
  atServer : ∀ c p m s, e.step = .execute c p m → e.before.target m = .remote →
    e.before.server = some s →
    e.run.calls = (s.aggregate c p).calls ∧ e.run.outcome = (s.aggregate c p).outcome
  noServer : ∀ c p m, e.step = .execute c p m → e.before.target m = .remote →
    e.before.server = none → e.run = .still e.before (.error (.configuration .noRemote))
  unavailable : ∀ c p, e.step = .execute c p .directOnly → e.before.isDatabaseAvailable = false →
    ∃ fault, e.run = .still e.before (.error (.unavailable fault))
  /-- A pipeline that cannot be encoded makes no call and opens nothing. -/
  unencodable : ∀ c p m error, e.step = .execute c p m →
    Encoding.pipeline (e.before.target m) p = .error error →
    ∃ error', e.run = .still e.before (.error error')
  ensure : ∀ d, e.step = .ensure → e.before.database = some d →
    ((∃ error, e.run.outcome = .error error) ↔ d.isAvailable = false)
  /-- A connection is opened only to send a pipeline to a database that can be used and has
      no connection. -/
  connect : ∀ uri, .connect uri ∈ e.run.calls → ∃ c p m d, e.step = .execute c p m ∧
    e.before.database = some d ∧ d.isAvailable = true ∧ d.isConnected = false ∧ uri = d.uri
  /-- The calls fit the connection before the step, and leave the one after it. -/
  connections :
    connectedAfterAll? e.before.isConnected e.run.calls = some e.run.after.isConnected

/-! ## Where a pipeline runs -/

theorem isDatabaseAvailable_eq_true_iff (g : Gateway) :
    g.isDatabaseAvailable = true ↔ ∃ d, g.database = some d ∧ d.isAvailable = true := by
  simp only [isDatabaseAvailable, Option.any_eq_true]

theorem execute_name (g : Gateway) (c p : Value) (m : Mode) :
    g.execute c p (.text m.name) = g.run c p m := by
  cases m <;> rfl

/-- A run for the storage target needs a database that can be used. -/
theorem run_of_target_storage {g : Gateway} {d : Database} {m : Mode}
    (hm : g.target m = .storage) (hd : g.database = some d) (havail : d.isAvailable = true)
    (c p : Value) :
    g.run c p m = (d.aggregate c p).within fun d => { g with database := some d } := by
  have hg : g.isDatabaseAvailable = true := g.isDatabaseAvailable_eq_true_iff.mpr ⟨d, hd, havail⟩
  cases m with
  | remote => cases hm
  | directOnly =>
    simp [run, hd, Database.ensureAvailable_of_isAvailable havail, runAtDatabase]
  | auto => simp [run, hg, runAtDatabase, hd]

theorem run_of_unavailable {g : Gateway} (h : g.isDatabaseAvailable = false) (c p : Value) :
    ∃ fault, g.run c p .directOnly = .still g (.error (.unavailable fault)) := by
  cases hd : g.database with
  | none => exact ⟨.notConfigured, by simp [run, hd]⟩
  | some d =>
    have hunavail : d.isAvailable = false := by
      simpa [isDatabaseAvailable, hd] using h
    obtain ⟨fault, hfault⟩ := Database.ensureAvailable_of_not_isAvailable hunavail
    exact ⟨fault, by simp [run, hd, hfault]⟩

theorem run_of_target_remote {g : Gateway} {m : Mode} (hm : g.target m = .remote) (c p : Value) :
    g.run c p m = g.runAtServer c p := by
  cases m with
  | remote => rfl
  | directOnly => cases hm
  | auto =>
    cases hg : g.isDatabaseAvailable with
    | true => simp [target, hg] at hm
    | false => simp [run, hg]

/-- A pipeline runs at the server, at a database that can be used, or not at all. -/
theorem run_cases (g : Gateway) (c p : Value) (m : Mode) :
    (∃ s, g.target m = .remote ∧ g.server = some s ∧
      g.run c p m = (s.aggregate c p).within fun s => { g with server := some s }) ∨
    (∃ d, g.target m = .storage ∧ g.database = some d ∧ d.isAvailable = true ∧
      g.run c p m = (d.aggregate c p).within fun d => { g with database := some d }) ∨
    (∃ e, g.run c p m = .still g (.error e)) := by
  cases hm : g.target m with
  | remote =>
    rw [run_of_target_remote hm]
    cases hs : g.server with
    | none => exact .inr (.inr ⟨.configuration .noRemote, by simp [runAtServer, hs]⟩)
    | some s => exact .inl ⟨s, rfl, rfl, by simp [runAtServer, hs]⟩
  | storage =>
    cases hg : g.isDatabaseAvailable with
    | true =>
      obtain ⟨d, hd, havail⟩ := g.isDatabaseAvailable_eq_true_iff.mp hg
      exact .inr (.inl ⟨d, rfl, hd, havail, run_of_target_storage hm hd havail c p⟩)
    | false =>
      have hdirect : m = .directOnly := by
        cases m with
        | remote => cases hm
        | directOnly => rfl
        | auto => simp [target, hg] at hm
      obtain ⟨fault, hfault⟩ := run_of_unavailable hg c p
      subst hdirect
      exact .inr (.inr ⟨_, hfault⟩)

/-! ## What a pipeline sends -/

/-- What a run of a pipeline has sent, and whether a connection is open after it. -/
inductive Sent (g : Gateway) (m : Mode) (r : Run Gateway (List Value)) : Prop where
  | nothing (calls : r.calls = []) (connection : r.after.isConnected = g.isConnected)
  | request (url : String) (headers : List (String × Value)) (pipeline : String)
      (target : g.target m = .remote) (calls : r.calls = [.request url headers pipeline])
      (connection : r.after.isConnected = g.isConnected)
  | query (d : Database) (collection : Value) (stages : List Value)
      (target : g.target m = .storage) (database : g.database = some d)
      (available : d.isAvailable = true)
      (calls : r.calls = d.openingCalls ++ [.query d.name collection stages])
      (connection : r.after.isConnected = true)

theorem run_sent (g : Gateway) (c p : Value) (m : Mode) : Sent g m (g.run c p m) := by
  rcases run_cases g c p m with ⟨s, hm, _, hrun⟩ | ⟨d, hm, hd, havail, hrun⟩ | ⟨e, hrun⟩
  · rw [hrun]
    rcases s.aggregate_cases c p with ⟨e, _, hquiet⟩ | ⟨text, _, hcalls⟩
    · exact .nothing (by rw [hquiet]; rfl) rfl
    · exact .request _ _ _ hm hcalls rfl
  · rw [hrun]
    rcases d.aggregate_cases c p with hquiet | ⟨_, stages, _, hcalls, hconn⟩
    · refine .nothing hquiet.calls ?_
      simpa [Run.within, isConnected, hd] using hquiet.connection
    · exact .query d c stages hm hd havail hcalls (by simpa [Run.within, isConnected] using hconn)
  · rw [hrun]
    exact .nothing rfl rfl

theorem Sent.once {g : Gateway} {m : Mode} {r : Run Gateway (List Value)} (h : Sent g m r) :
    (r.calls.filter Call.sendsPipeline).length ≤ 1 := by
  cases h with
  | nothing calls _ => simp [calls]
  | request _ _ _ _ calls _ =>
    rw [calls]
    exact Nat.le_refl 1
  | query d collection stages _ _ _ calls _ =>
    rw [calls]
    exact Nat.le_of_eq (d.length_filter_sendsPipeline_sent collection stages)

/-- All calls go to the executor of the target. -/
theorem Sent.oneExecutor {g : Gateway} {m : Mode} {r : Run Gateway (List Value)}
    (h : Sent g m r) :
    (g.target m = .remote → ∀ call ∈ r.calls, call.isServer = true ∧ call.isDatabase = false) ∧
    (g.target m = .storage → ∀ call ∈ r.calls, call.isDatabase = true ∧ call.isServer = false) := by
  cases h with
  | nothing calls _ => simp [calls]
  | request _ _ _ target calls _ =>
    refine ⟨fun _ call hcall => ?_, fun hstorage => ?_⟩
    · rw [calls] at hcall
      cases List.mem_singleton.mp hcall
      exact ⟨rfl, rfl⟩
    · rw [target] at hstorage
      cases hstorage
  | query d _ _ target _ _ calls _ =>
    refine ⟨fun hremote => ?_, fun _ call hcall => ?_⟩
    · rw [target] at hremote
      cases hremote
    · exact Database.isDatabase_of_mem_sent (calls ▸ hcall)

theorem Sent.connect {g : Gateway} {m : Mode} {r : Run Gateway (List Value)} (h : Sent g m r)
    {uri : Value} (huri : .connect uri ∈ r.calls) :
    ∃ d, g.database = some d ∧ d.isAvailable = true ∧ d.isConnected = false ∧ uri = d.uri := by
  cases h with
  | nothing calls _ => simp [calls] at huri
  | request _ _ _ _ calls _ => simp [calls] at huri
  | query d _ _ _ database available calls _ =>
    rw [calls, Database.openingCalls] at huri
    cases hconn : d.isConnected with
    | true => simp [hconn] at huri
    | false => exact ⟨d, database, available, hconn, by simpa [hconn] using huri⟩

theorem Sent.connections {g : Gateway} {m : Mode} {r : Run Gateway (List Value)}
    (h : Sent g m r) :
    connectedAfterAll? g.isConnected r.calls = some r.after.isConnected := by
  cases h with
  | nothing calls connection =>
    rw [calls, connection]
    rfl
  | request _ _ _ _ calls connection =>
    rw [calls, connection]
    rfl
  | query d _ _ _ database _ calls connection =>
    have hg : g.isConnected = d.isConnected := by simp [isConnected, database]
    rw [calls, connection, hg, Database.openingCalls]
    cases d.isConnected <;> rfl

/-! ## Steps that send nothing -/

theorem run_of_unencodable {g : Gateway} {m : Mode} {p : Value} {e : Error}
    (hp : Encoding.pipeline (g.target m) p = .error e) (c : Value) :
    ∃ e', g.run c p m = .still g (.error e') := by
  rcases run_cases g c p m with ⟨s, hm, hs, hrun⟩ | ⟨d, hm, hd, _, hrun⟩ | hfail
  · rw [hm] at hp
    have htext := Server.pipelineText_of_unencodable hp
    refine ⟨e, ?_⟩
    simp [hrun, Server.aggregate, htext, Run.still, Run.within, ← hs]
  · rw [hm] at hp
    obtain ⟨e', he'⟩ := Database.aggregate_of_unencodable hp c (d := d)
    refine ⟨e', ?_⟩
    simp [hrun, he', Run.still, Run.within, ← hd]
  · exact hfail

theorem close_isConnected (g : Gateway) : g.close.after.isConnected = false := by
  cases hd : g.database with
  | none => simp [close, hd, isConnected]
  | some d =>
    cases hconn : d.connection <;>
      simp [close, hd, isConnected, Database.close, hconn, Database.isConnected, Run.still]

/-- Closing ends a connection when there is one. -/
theorem close_connections (g : Gateway) :
    connectedAfterAll? g.isConnected g.close.calls = some false := by
  cases hs : g.server <;> cases hd : g.database with
  | none => simp [close, hs, hd, isConnected, connectedAfterAll?, connectedAfter?, Server.close]
  | some d =>
    cases hconn : d.connection <;>
      simp [close, hs, hd, isConnected, connectedAfterAll?, connectedAfter?, Server.close,
        Database.close, hconn, Database.isConnected, Run.still]

theorem connect_not_mem_close_calls (g : Gateway) (uri : Value) :
    Call.connect uri ∉ g.close.calls := by
  cases hs : g.server <;> cases hd : g.database with
  | none => simp [close, hs, hd, Server.close]
  | some d =>
    cases hconn : d.connection <;>
      simp [close, hs, hd, Server.close, Database.close, hconn, Run.still]

/-- A check fails exactly when the database cannot be used. -/
theorem ensure_fails_iff {g : Gateway} {d : Database} (hd : g.database = some d) :
    (∃ error, (g.step .ensure).outcome = .error error) ↔ d.isAvailable = false := by
  cases havail : d.isAvailable with
  | true =>
    simp [step, Run.still, hd, Database.ensureAvailable_of_isAvailable havail, Except.map]
  | false =>
    obtain ⟨fault, hfault⟩ := Database.ensureAvailable_of_not_isAvailable havail
    simp [step, Run.still, hd, hfault, Except.map]

/-! ## Histories -/

theorem execute_isSafe (g : Gateway) (c p : Value) (m : Mode) :
    (⟨g, .execute c p m⟩ : Event).IsSafe := by
  have hrun : (⟨g, .execute c p m⟩ : Event).run = g.run c p m := execute_name g c p m
  have hsent := run_sent g c p m
  constructor
  case once =>
    rintro _ _ _ ⟨⟩
    rw [hrun]
    exact hsent.once
  case oneExecutor =>
    rintro _ _ _ ⟨⟩
    rw [hrun]
    cases hm : g.target m with
    | remote => exact .inl fun call hcall => (hsent.oneExecutor.1 hm call hcall).1
    | storage => exact .inr fun call hcall => (hsent.oneExecutor.2 hm call hcall).1
  case remote =>
    rintro _ _ ⟨⟩ call hcall
    rw [hrun] at hcall
    exact (hsent.oneExecutor.1 rfl call hcall).2
  case directOnly =>
    rintro _ _ ⟨⟩ call hcall
    rw [hrun] at hcall
    exact (hsent.oneExecutor.2 rfl call hcall).2
  case atDatabase =>
    rintro _ _ _ d ⟨⟩ hm hd havail
    rw [hrun, run_of_target_storage hm hd havail]
    exact ⟨rfl, rfl⟩
  case atServer =>
    rintro _ _ _ s ⟨⟩ hm hs
    have hserver : g.server = some s := hs
    rw [hrun, run_of_target_remote hm]
    simp [runAtServer, hserver, Run.within]
  case noServer =>
    rintro _ _ _ ⟨⟩ hm hs
    have hserver : g.server = none := hs
    rw [hrun, run_of_target_remote hm]
    simp [runAtServer, hserver]
  case unavailable =>
    rintro _ _ ⟨⟩ havail
    rw [hrun]
    exact run_of_unavailable havail c p
  case unencodable =>
    rintro _ _ _ error ⟨⟩ hp
    rw [hrun]
    exact run_of_unencodable hp c
  case ensure => rintro _ ⟨⟩
  case connect =>
    intro uri huri
    rw [hrun] at huri
    obtain ⟨d, hd⟩ := hsent.connect huri
    exact ⟨c, p, m, d, rfl, hd⟩
  case connections =>
    rw [hrun]
    exact hsent.connections

theorem ensure_isSafe (g : Gateway) : (⟨g, .ensure⟩ : Event).IsSafe := by
  constructor
  case ensure => exact fun d _ hd => ensure_fails_iff hd
  case connect =>
    intro uri huri
    cases huri
  case connections => rfl
  all_goals intros; contradiction

theorem close_isSafe (g : Gateway) : (⟨g, .close⟩ : Event).IsSafe := by
  constructor
  case connect => exact fun uri huri => absurd huri (connect_not_mem_close_calls g uri)
  case connections =>
    have hafter : (⟨g, .close⟩ : Event).run.after = g.close.after := rfl
    rw [hafter, close_isConnected]
    exact close_connections g
  all_goals intros; contradiction

theorem Event.isSafe (e : Event) : e.IsSafe := by
  obtain ⟨g, s⟩ := e
  cases s with
  | execute c p m => exact execute_isSafe g c p m
  | ensure => exact ensure_isSafe g
  | close => exact close_isSafe g

/-- The calls of a whole history fit the connection at its start, and leave the one at its
    end: what one step does to the connection carries over to any number of steps. -/
theorem history_connections (g : Gateway) (steps : List Step) :
    connectedAfterAll? g.isConnected (allCalls (g.history steps)) =
      some (g.afterAll steps).isConnected := by
  induction steps generalizing g with
  | nil => rfl
  | cons s steps ih =>
    have hstep : connectedAfterAll? g.isConnected (g.step s).calls =
        some (g.step s).after.isConnected := (Event.isSafe ⟨g, s⟩).connections
    have hcalls : allCalls (g.history (s :: steps)) =
        (g.step s).calls ++ allCalls ((g.step s).after.history steps) := by
      simp [history, allCalls, Event.run]
    rw [hcalls, connectedAfterAll?_append, hstep]
    exact ih (g.step s).after

/-- Every event of a history keeps the rules, and over the whole history connections are
    opened only when there is none, and used and closed only while there is one. -/
theorem history_isSafe (g : Gateway) (steps : List Step) :
    (∀ e ∈ g.history steps, e.IsSafe) ∧
      connectedAfterAll? g.isConnected (allCalls (g.history steps)) =
        some (g.afterAll steps).isConnected :=
  ⟨fun e _ => e.isSafe, history_connections g steps⟩

end DocQuery.Gateway
