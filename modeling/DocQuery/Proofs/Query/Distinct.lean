-- SUMMARY: What counts and distinct values come to over stored documents.
import DocQuery.Proofs.Group.Rows
import DocQuery.Proofs.Query.Stored

/-!
# Counts and distinct values

A count is the number of documents that the filter of its query leaves. The distinct values
of a field are the keys of the groups that those documents fall into.
-/

namespace DocQuery

open Document (IsShownAs toWire)
open Encoding (Reaches)
open FieldName (keyPath)
open Store (keyAt gather withKeys)

/-! ## Plans for one field -/

namespace FieldPlan

/-- The path at which the store finds the keys of a plan. -/
def path (p : FieldPlan) : String :=
  keyPath p.pointer (FieldName.wire (.text p.field))

/-- The distinct values of the field of a plan. -/
def distinct (p : FieldPlan) (asPointers : Bool) : DistinctPlan :=
  ⟨FieldName.wire (.text p.field), p.pointer, asPointers⟩

end FieldPlan

variable {search : Value → Bool → Value → Bool} {d : Draft} {p : FieldPlan}
  {docs matched : List Value}

/-! ## Counts -/

theorem toWire_single {name : String} (hname : FieldName.IsField name) {v w : Value}
    (h : IsShownAs v w) : toWire (.object [(name, v)]) .null = .ok (.object [(name, w)]) := by
  refine Document.toWire_of_plain (fun f hf => ?_) (List.nodup_singleton _) (.cons ⟨rfl, h⟩ .nil)
  rw [List.mem_singleton.mp hf]
  exact hname

/-- The row of a count. Nothing is counted where there is no row. -/
def countRows (name : String) (rows : List Value) : List Value :=
  if rows.isEmpty then [] else [.object [(name, .int rows.length)]]

theorem mapM_countRows {name : String} (hname : FieldName.IsField name) (rows : List Value) :
    ((countRows name rows).mapM fun row => toWire row .null) = .ok (countRows name rows) := by
  unfold countRows
  split
  · rfl
  · rw [List.mapM_cons, toWire_single hname (Document.isShownAs_int _)]
    rfl

theorem count_countRows (rows : List Value) :
    Rows.count (countRows "count" rows) = .ok (.int rows.length) := by
  cases rows with
  | nil => rfl
  | cons row rows =>
    have hgiven : (Value.int (row :: rows).length).isGiven = true := by
      simp [Value.isGiven]
      omega
    have hcount : Rows.count (countRows "count" (row :: rows)) =
        if (Value.int (row :: rows).length).isGiven then
          (Value.int (row :: rows).length).whole.map .int
        else .ok (.int 0) := rfl
    rw [hcount, if_pos hgiven]
    rfl

theorem distinctCount_countRows (rows : List Value) :
    Rows.distinctCount (countRows "distinctCount" rows) = .ok (.int rows.length) := by
  cases rows <;> rfl

namespace Draft

/-- The count of a query is the number of documents that its filter leaves. -/
theorem comesTo_count (h : d.Leaves search docs matched) {mode : Mode} (hmode : mode ≠ .remote) :
    d.ComesTo search docs (fun g => d.count g mode) (countRows "count" matched)
      (.int matched.length) := by
  have hpipeline : ∀ first, d.filterStage? = .ok first →
      d.countPipeline = Stage.toPipeline (first.toList ++ [.count (.text "count")]) := by
    intro first hfirst
    rw [countPipeline, Pipeline.counting, hfirst]
    rfl
  exact h.comesTo hpipeline (.cons (Encoding.reaches_count "count") .nil)
    (Store.run?_cons rfl []) (mapM_countRows ⟨by decide, by decide, by decide⟩ matched)
    (count_countRows matched) hmode

end Draft

/-! ## Distinct values -/

theorem FieldPlan.head?_path (h : p.field.toList.head? ≠ some '$') :
    p.path.toList.head? ≠ some '$' :=
  FieldName.head?_keyPath (FieldName.head?_wire h) p.pointer

/-- The groups that the documents of a plan fall into. -/
def FieldPlan.groups (p : FieldPlan) (rows : List Value) : List (Value × List Value) :=
  gather (withKeys p.path rows)

/-- The values of a plan are keys in each of the rows. -/
def FieldPlan.HasKeys (p : FieldPlan) (rows : List Value) : Prop :=
  ∀ row ∈ rows, (keyAt p.path row).IsKey

theorem FieldPlan.HasKeys.areGathered {rows : List Value} (h : p.HasKeys rows) :
    Store.AreGathered (withKeys p.path rows) (p.groups rows) :=
  Store.areGathered_gather (Store.isKey_of_mem_withKeys h)

theorem FieldPlan.HasKeys.isKey {rows : List Value} (h : p.HasKeys rows) :
    ∀ g ∈ p.groups rows, g.1.IsKey :=
  h.areGathered.isKey (Store.isKey_of_mem_withKeys h)

namespace Draft

/-- The number of distinct values is the number of groups. -/
theorem comesTo_distinctCount (h : d.Leaves search docs matched)
    (hfield : p.field.toList.head? ≠ some '$') (asPointers : Bool) {mode : Mode}
    (hmode : mode ≠ .remote) : ∃ rows,
      d.ComesTo search docs (fun g => d.distinctCount g (p.distinct asPointers) mode) rows
        (.int (p.groups matched).length) := by
  let keys : List Value := (p.groups matched).map fun g => .object [("_id", g.1)]
  have hpipeline : ∀ first, d.filterStage? = .ok first →
      (p.distinct asPointers).countPipeline d = Stage.toPipeline (first.toList ++
        [(p.distinct asPointers).groupStage, .count (.text "distinctCount")]) := by
    intro first hfirst
    rw [DistinctPlan.countPipeline, hfirst]
    rfl
  have hreaches : List.Forall₂ Reaches
      [(p.distinct asPointers).groupStage, .count (.text "distinctCount")]
      [Encoding.keysDocument p.path, Stage.single "$count" (.text "distinctCount")] :=
    .cons (Encoding.reaches_keys _)
      (.cons (Encoding.reaches_count "distinctCount") .nil)
  have hrun : Store.run? search matched
      [Encoding.keysDocument p.path, Stage.single "$count" (.text "distinctCount")] =
        some (countRows "distinctCount" keys) := by
    rw [Store.run?_cons (Store.stage?_keys (p.head?_path hfield) matched)]
    exact Store.run?_cons rfl []
  have hcount : Rows.distinctCount (countRows "distinctCount" keys) =
      .ok (.int (p.groups matched).length) := by
    rw [distinctCount_countRows, List.length_map]
  exact ⟨countRows "distinctCount" keys, h.comesTo hpipeline hreaches hrun
    (mapM_countRows ⟨by decide, by decide, by decide⟩ keys) hcount hmode⟩

/-- There are as many distinct values as groups whose key is not null. -/
theorem comesTo_distinct (h : d.Leaves search docs matched)
    (hfield : p.field.toList.head? ≠ some '$') (hkeys : p.HasKeys matched) (asPointers : Bool)
    {mode : Mode} (hmode : mode ≠ .remote) : ∃ rows values,
      d.ComesTo search docs (fun g => d.distinct g (p.distinct asPointers) mode) rows values ∧
      values.length = (((p.groups matched).map (·.1)).filter fun k => !k.isNull).length := by
  let showing : Stage := .project (.object [("_id", .int 0), ("value", .text "$_id")])
  have hpipeline : ∀ first, d.filterStage? = .ok first →
      (p.distinct asPointers).pipeline d = Stage.toPipeline (first.toList ++
        [(p.distinct asPointers).groupStage, showing]) := by
    intro first hfirst
    rw [DistinctPlan.pipeline, hfirst]
    rfl
  have hreaches : List.Forall₂ Reaches [(p.distinct asPointers).groupStage, showing]
      [Encoding.keysDocument p.path, Encoding.valuesDocument] :=
    .cons (Encoding.reaches_keys _)
      (.cons Encoding.reaches_values .nil)
  have hrun : Store.run? search matched [Encoding.keysDocument p.path, Encoding.valuesDocument] =
      some ((p.groups matched).map fun g => .object [("value", g.1)]) := by
    rw [Store.run?_cons (Store.stage?_keys (p.head?_path hfield) matched)]
    exact Store.run?_cons (Store.stage?_values (p.groups matched)) []
  obtain ⟨ws, hws⟩ := exists_forall₂ fun g hg => (hkeys.isKey g hg).exists_shown
  have hwires : (((p.groups matched).map fun g => Value.object [("value", g.1)]).mapM
      fun row => toWire row .null) = .ok (ws.map fun w => .object [("value", w)]) := by
    rw [mapM_eq_ok_iff, List.forall₂_map_left_iff, List.forall₂_map_right_iff]
    exact hws.imp fun g w hw => toWire_single ⟨by decide, by decide, by decide⟩ hw.1
  have hshown : ∀ w ∈ ws, w.IsShownKey :=
    forall_mem_of_forall₂ hws fun g w hw => hw.2.1
  obtain ⟨values, hvalues, hlength⟩ := (p.distinct asPointers).exists_decode hshown
  refine ⟨_, values, h.comesTo hpipeline hreaches hrun hwires hvalues hmode, ?_⟩
  rw [hlength, List.filter_map, List.length_map]
  exact (List.rel_filter (fun g w hw => by simp [hw.2.2]) hws).length_eq.symm

end Draft

end DocQuery
