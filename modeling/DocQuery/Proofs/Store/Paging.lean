-- SUMMARY: A store that also skips and limits rows, and sorts them whatever order they lie in.
import DocQuery.Proofs.Sorting.Permuted
import DocQuery.Proofs.Store.Run
import DocQuery.Proofs.Value.Timely

/-!
# Pages of rows

A store that cuts rows to a page. Its sort is the merging of runs, so that it also has an outcome
where values lie in no order, as long as it never has to compare two that cannot be compared at
all. The other stages are those of a store without pages.
-/

namespace DocQuery.Store

open Encoding (keepDocument keepFields sortDocument sortFields)
open Selection (at? step?)

/-! ## Sorting -/

/-- The first row lies below the second by a field; none when the two cannot be compared. -/
def liesBelow? (field : String) (a b : Value) : Option Bool :=
  below? (sortKey field a) (sortKey field b)

/-- The rows sorted by a field. Falling rows are rising ones turned around, and both times rows
    that lie in no order stay as they were. -/
def order? (field : String) (direction : Value) (rows : List Value) : Option (List Value) :=
  if direction == .int (-1) then
    (Sorting.sortM (liesBelow? field) rows.reverse).map List.reverse
  else Sorting.sortM (liesBelow? field) rows

/-- The rows sorted by fields with directions, most significant first. -/
def orderBy? : List (Value × Value) → List Value → Option (List Value)
  | [], rows => some rows
  | (field, direction) :: fields, rows => do
    order? field.keyText direction (← orderBy? fields rows)

theorem order?_perm {field : String} {direction : Value} {rows sorted : List Value}
    (h : order? field direction rows = some sorted) : sorted.Perm rows := by
  unfold order? at h
  split at h
  · obtain ⟨rising, hrising, rfl⟩ := Option.map_eq_some_iff.mp h
    exact (List.reverse_perm rising).trans
      ((Sorting.sortM_perm hrising).trans (List.reverse_perm rows))
  · exact Sorting.sortM_perm h

/-- A sort moves rows and does nothing else. -/
theorem orderBy?_perm {fields : List (Value × Value)} {rows sorted : List Value}
    (h : orderBy? fields rows = some sorted) : sorted.Perm rows := by
  induction fields generalizing sorted with
  | nil =>
    cases h
    exact .refl _
  | cons f fields ih =>
    obtain ⟨before, hbefore, h⟩ := Option.bind_eq_some_iff.mp h
    exact (order?_perm h).trans (ih hbefore)

/-! ## Stages -/

variable (search : Value → Bool → Value → Bool)

/-- The number of rows that a stage of a page names. -/
def rowCount? : Value → Option Nat
  | .int n => if 0 ≤ n then some n.toNat else none
  | _ => none

/-- The rows after a stage. -/
def pagedStage? (rows : List Value) (stage : Value) : Option (List Value) :=
  match stage with
  | .map [(.text "$sort", .map fields)] => orderBy? fields rows
  | .map [(.text "$skip", n)] => (rowCount? n).map rows.drop
  | .map [(.text "$limit", n)] => (rowCount? n).map rows.take
  | stage => stage? search rows stage

/-- The rows after the stages of a pipeline. -/
def pagedRun? (docs stages : List Value) : Option (List Value) :=
  stages.foldlM (pagedStage? search) docs

variable {search}

theorem pagedRun?_append {docs rows stages : List Value}
    (h : pagedRun? search docs stages = some rows) (more : List Value) :
    pagedRun? search docs (stages ++ more) = pagedRun? search rows more := by
  rw [pagedRun?, List.foldlM_append, ← pagedRun?, h]
  rfl

theorem pagedRun?_singleton (rows : List Value) (stage : Value) :
    pagedRun? search rows [stage] = pagedStage? search rows stage := by
  rw [pagedRun?, List.foldlM_cons]
  exact Option.bind_fun_some _

theorem pagedStage?_filter (body : Value) (rows : List Value) :
    pagedStage? search rows (Stage.single "$match" body) =
      some (rows.filter fun row => Selection.selects search row body) :=
  rfl

theorem pagedStage?_sort (columns : List (String × Direction)) (rows : List Value) :
    pagedStage? search rows (sortDocument columns) =
      orderBy? ((sortFields columns).map fun (k, v) => (.text k, v)) rows :=
  rfl

theorem rowCount?_natCast (n : Nat) : rowCount? (.int n) = some n := by
  rw [rowCount?, if_pos (Int.natCast_nonneg n), Int.toNat_natCast]

theorem pagedStage?_skip (n : Nat) (rows : List Value) :
    pagedStage? search rows (Stage.single "$skip" (.int n)) = some (rows.drop n) := by
  show (rowCount? (.int n)).map rows.drop = _
  rw [rowCount?_natCast, Option.map_some]

theorem pagedStage?_limit (n : Nat) (rows : List Value) :
    pagedStage? search rows (Stage.single "$limit" (.int n)) = some (rows.take n) := by
  show (rowCount? (.int n)).map rows.take = _
  rw [rowCount?_natCast, Option.map_some]

theorem pagedStage?_count (name : String) (rows : List Value) :
    pagedStage? search rows (Stage.single "$count" (.text name)) =
      some (if rows.isEmpty then [] else [.object [(name, .int rows.length)]]) :=
  rfl

/-! ## Kept columns -/

/-- What a projection to columns leaves of a row: these columns, and always the id. -/
def kept (columns : List String) (row : Value) : Value :=
  .object ((at? row "_id").toList.map (fun v => ("_id", v)) ++
    (columns.filter (· != "_id")).flatMap fun c => (at? row c).toList.map fun v => (c, v))

theorem project?_kept (columns : List String) (row : Value) :
    project? (columns.map fun c => (.text c, .int 1)) row = some (kept columns row) := by
  have hexcluded : (Assoc.find? (.text "_id")
      (columns.map fun c => (Value.text c, Value.int 1))).any (· == .int 0) = false := by
    cases hid : Assoc.find? (.text "_id") (columns.map fun c => (Value.text c, Value.int 1)) with
    | none => rfl
    | some v =>
      obtain rfl : v = .int 1 := Assoc.of_find?_eq_some (P := fun v => v = Value.int 1)
        (List.forall_mem_map.mpr fun _ _ => rfl) hid
      decide
  have hothers : (columns.map fun c => (Value.text c, Value.int 1)).filter
      (fun f => !(f.1 == .text "_id")) =
        (columns.filter (· != "_id")).map fun c => (Value.text c, Value.int 1) :=
    List.filter_map
  have hprojected : ((columns.filter (· != "_id")).map fun c => (Value.text c, Value.int 1)).mapM
      (fun f => projected? row f.1 f.2) =
        some ((columns.filter (· != "_id")).map fun c =>
          (at? row c).toList.map fun v => (Value.text c, v)) := by
    rw [List.mapM_map]
    exact mapM_eq_some_map fun _ _ => rfl
  rw [project?, hexcluded]
  show ((((columns.map fun c => (Value.text c, Value.int 1)).filter
    fun f => !(f.1 == .text "_id")).mapM fun f => projected? row f.1 f.2).bind _) = _
  rw [hothers, hprojected, Option.bind_some, kept, Value.object]
  simp [List.flatMap, List.map_flatten, Function.comp_def]

theorem pagedStage?_keep (columns : List String) (rows : List Value) :
    pagedStage? search rows (keepDocument columns) = some (rows.map (kept columns)) := by
  have hfields : ((keepFields columns).map fun f => (Value.text f.1, f.2)) =
      columns.map fun c => (.text c, .int 1) := List.map_map
  show rows.mapM (project? ((keepFields columns).map fun f => (Value.text f.1, f.2))) = _
  rw [hfields]
  exact mapM_eq_some_map fun row _ => project?_kept columns row

/-! ## Points in time -/

theorem haveTimely_iff {es : List (Value × Value)} :
    Value.haveTimely es = true ↔ ∀ e ∈ es, e.2.isTimely = true := by
  induction es with
  | nil => simp [Value.haveTimely]
  | cons e es ih => rw [Value.haveTimely, Bool.and_eq_true, ih, List.forall_mem_cons]

/-- What lies at a path of a timely row is timely. -/
theorem isTimely_at? {row v : Value} {path : String} (h : row.isTimely = true)
    (hat : at? row path = some v) : v.isTimely = true := by
  unfold at? at hat
  generalize FieldName.splitOn '.' path.toList = steps at hat
  induction steps generalizing row with
  | nil =>
    cases hat
    exact h
  | cons key steps ih =>
    rw [List.foldlM_cons] at hat
    obtain ⟨inner, hinner, hat⟩ := Option.bind_eq_some_iff.mp hat
    refine ih ?_ hat
    obtain ⟨es, hes, hfind⟩ := Option.bind_eq_some_iff.mp hinner
    cases row with
    | map fields =>
      cases hes
      rw [Value.isTimely, haveTimely_iff] at h
      exact Assoc.of_find?_eq_some (P := fun v => v.isTimely = true) h hfind
    | _ => cases hes

theorem isTimely_kept {row : Value} (h : row.isTimely = true) (columns : List String) :
    (kept columns row).isTimely = true := by
  rw [kept, Value.object, Value.isTimely, haveTimely_iff, List.forall_mem_map]
  intro f hf
  rcases List.mem_append.mp hf with hf | hf
  · obtain ⟨v, hv, rfl⟩ := List.mem_map.mp hf
    exact isTimely_at? h (Option.mem_toList.mp hv)
  · obtain ⟨c, -, hf⟩ := List.mem_flatMap.mp hf
    obtain ⟨v, hv, rfl⟩ := List.mem_map.mp hf
    exact isTimely_at? h (Option.mem_toList.mp hv)

end DocQuery.Store
