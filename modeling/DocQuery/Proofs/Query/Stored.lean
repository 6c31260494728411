-- SUMMARY: What the operations of queries come to when the database answers from stored documents.
import DocQuery.Proofs.Gateway.Executor
import DocQuery.Proofs.Pipeline
import DocQuery.Proofs.Store.Run
import DocQuery.Proofs.Store.Sorting

/-!
# Queries over stored documents

An operation of a query sends one pipeline through the gateway. When that goes to a database
which answers as a store would, the outcome is what the operation reads from the rows that
the pipeline leaves in the store.
-/

namespace DocQuery

open Document (toWire)
open Encoding (Reaches)

variable (search : Value → Bool → Value → Bool)

/-! ## Answers of a database -/

/-- The database of a gateway can be used, is connected, and answers the next pipeline with
    some documents. -/
structure Gateway.WillAnswer (g : Gateway) (db : Database) (docs : List Value) : Prop where
  database : g.database = some db
  available : db.isAvailable = true
  reply : ∃ later, db.connection = some ⟨.documents docs, later⟩

/-- Any documents may be the answer. -/
theorem Gateway.exists_willAnswer (docs : List Value) :
    ∃ (g : Gateway) (db : Database), g.WillAnswer db docs := by
  let db : Database := ⟨.null, .text "songs", .bool true, some ⟨.documents docs, []⟩,
    ⟨.failure "", []⟩⟩
  exact ⟨⟨none, some db⟩, db, rfl, rfl, [], rfl⟩

/-- A pipeline that may run at such a database is sent there, and the answer comes back in
    wire form. -/
theorem Gateway.run_of_willAnswer {g : Gateway} {db : Database} {docs stages : List Value}
    (h : g.WillAnswer db docs) {pipeline : Value}
    (hstages : Encoding.pipeline .storage pipeline = .ok stages) {mode : Mode}
    (hmode : mode ≠ .remote) (className : Value) :
    (g.run className pipeline mode).outcome = (docs.mapM fun doc => toWire doc .null) ∧
      (g.run className pipeline mode).calls = [.query db.name className stages] := by
  obtain ⟨later, hreply⟩ := h.reply
  have hensure := Database.ensureAvailable_of_isAvailable h.available
  have hrun : g.run className pipeline mode = g.runAtDatabase className pipeline := by
    cases mode with
    | remote => exact absurd rfl hmode
    | auto => simp [run, isDatabaseAvailable, h.database, h.available]
    | directOnly => simp [run, h.database, hensure]
  have hsend : db.aggregate className pipeline =
      db.query ⟨.documents docs, later⟩ [] className stages := by
    simp [Database.aggregate, hensure, hstages, Database.send, hreply]
  have hnext : (Replies.next ⟨DatabaseReply.documents docs, later⟩).1 = .documents docs := by
    unfold Replies.next
    cases later <;> rfl
  rw [hrun, runAtDatabase, h.database]
  simp only [hsend, Database.query, hnext]
  exact ⟨rfl, rfl⟩

/-! ## Operations -/

namespace Draft

/-- Over the documents of a collection, an operation of a query comes to `a`: the pipeline
    that it sends leaves `rows` in the store, and when the database answers with them, the
    operation ends with `a` and has sent nothing else. -/
def ComesTo {α : Type} (d : Draft) (docs : List Value) (operation : Gateway → Run Gateway α)
    (rows : List Value) (a : α) : Prop :=
  ∃ stages, Store.run? search docs stages = some rows ∧
    ∀ g db, g.WillAnswer db rows → (operation g).outcome = .ok a ∧
      (operation g).calls = [.query db.name d.query.className stages]

/-- An operation comes to what it reads from the rows of its stages. -/
theorem comesTo_of_reaches {α : Type} {d : Draft} {docs : List Value} {stages : List Stage}
    {encoded rows wires : List Value} (hreaches : List.Forall₂ Reaches stages encoded)
    (hrun : Store.run? search docs encoded = some rows)
    (hwires : (rows.mapM fun row => toWire row .null) = .ok wires)
    {read : List Value → Except Error α} {a : α} (hread : read wires = .ok a)
    {mode : Mode} (hmode : mode ≠ .remote) :
    d.ComesTo search docs (fun g => (d.send g (Stage.toPipeline stages) mode).read read) rows
      a := by
  obtain ⟨written, hwritten, hpipeline⟩ := Encoding.pipeline_of_reaches hreaches
  refine ⟨encoded, hrun, fun g db hanswer => ?_⟩
  obtain ⟨houtcome, hcalls⟩ := Gateway.run_of_willAnswer hanswer hpipeline hmode d.query.className
  rw [hwritten]
  show (g.run d.query.className (.list written) mode).outcome.bind read = .ok a ∧
    (g.run d.query.className (.list written) mode).calls = _
  rw [houtcome, hwires]
  exact ⟨hread, hcalls⟩

/-! ## The filter -/

/-- The filter of a query compiles, is encoded, and leaves some of the documents of a
    collection in the store. -/
inductive Leaves (d : Draft) (docs : List Value) : List Value → Prop
  | all (h : d.filterStage? = .ok none) : Leaves d docs docs
  | selected {body encoded : Value} (h : d.filterStage? = .ok (some (.filter body)))
    (hencoded : Encoding.matchBody .storage body = .ok encoded) :
    Leaves d docs (docs.filter fun doc => Selection.selects search doc encoded)

variable {search}

/-- A filter that compiles and is encoded leaves some documents. -/
theorem exists_leaves {d : Draft} {first : Option Stage} (hfirst : d.filterStage? = .ok first)
    (hencodes : ∀ body, first = some (.filter body) →
      ∃ encoded, Encoding.matchBody .storage body = .ok encoded) (docs : List Value) :
    ∃ matched, d.Leaves search docs matched := by
  cases first with
  | none => exact ⟨docs, .all hfirst⟩
  | some stage =>
    obtain ⟨body, rfl⟩ := exists_filter_of_filterStage? hfirst
    obtain ⟨encoded, hencoded⟩ := hencodes body rfl
    exact ⟨_, .selected hfirst hencoded⟩

theorem Leaves.sublist {d : Draft} {docs matched : List Value} (h : d.Leaves search docs matched) :
    matched.Sublist docs := by
  cases h with
  | all => exact .refl docs
  | selected => exact List.filter_sublist

/-- The stages of the filter, and what they leave. -/
theorem Leaves.exists_stages {d : Draft} {docs matched : List Value}
    (h : d.Leaves search docs matched) : ∃ first encoded, d.filterStage? = .ok first ∧
      List.Forall₂ Reaches first.toList encoded ∧
      Store.run? search docs encoded = some matched := by
  cases h with
  | all h => exact ⟨none, [], h, .nil, rfl⟩
  | selected h hencoded =>
    exact ⟨_, _, h, .cons (Encoding.reaches_filter hencoded) .nil, rfl⟩

/-- An operation whose pipeline starts with the filter comes to what it reads from the rows
    that its other stages make of the documents left. -/
theorem Leaves.comesTo {α : Type} {d : Draft} {docs matched : List Value}
    (h : d.Leaves search docs matched) {later : List Stage}
    {pipeline : Except Error (List Value)}
    (hpipeline : ∀ first, d.filterStage? = .ok first →
      pipeline = Stage.toPipeline (first.toList ++ later))
    {encoded rows wires : List Value} (hlater : List.Forall₂ Reaches later encoded)
    (hrun : Store.run? search matched encoded = some rows)
    (hwires : (rows.mapM fun row => toWire row .null) = .ok wires)
    {read : List Value → Except Error α} {a : α} (hread : read wires = .ok a)
    {mode : Mode} (hmode : mode ≠ .remote) :
    d.ComesTo search docs (fun g => (d.send g pipeline mode).read read) rows a := by
  obtain ⟨first, selecting, hfirst, hselecting, hmatched⟩ := h.exists_stages
  rw [hpipeline first hfirst]
  refine comesTo_of_reaches search (List.rel_append hselecting hlater) ?_ hwires hread hmode
  rw [Store.run?_append hmatched]
  exact hrun

end Draft

end DocQuery
