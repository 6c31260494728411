-- SUMMARY: The rows that counts, groupings and distinct values leave in the store.
import DocQuery.Proofs.Encoding.Stage
import DocQuery.Proofs.Store.Grouping

/-!
# Rows of groupings

What the store makes of the documents of counts, groupings and distinct values. All of them
gather the same rows by the same keys: a grouping leaves a row for each group, the values a
row for each key, and a count a single row, or none when there is nothing to count.
-/

namespace DocQuery.Store

open Encoding (countsDocument keysDocument renameDocument sortDocument valuesDocument)
open Selection (at? selects)

variable {search : Value → Bool → Value → Bool}

/-! ## Stages in turn -/

theorem run?_append {docs rows stages : List Value} (h : run? search docs stages = some rows)
    (more : List Value) : run? search docs (stages ++ more) = run? search rows more := by
  rw [run?, List.foldlM_append, ← run?, h]
  rfl

theorem run?_cons {docs rows : List Value} {stage : Value}
    (h : stage? search docs stage = some rows) (more : List Value) :
    run? search docs (stage :: more) = run? search rows more := by
  rw [run?, List.foldlM_cons, h]
  rfl

theorem stage?_sort (columns : List (String × Direction)) (rows : List Value) :
    stage? search rows (sortDocument columns) =
      sortBy? ((Encoding.sortFields columns).map fun (k, v) => (.text k, v)) rows :=
  rfl

/-! ## Keys -/

/-- The key of a row in a grouping by a path; null when the row has nothing there. -/
def keyAt (path : String) (row : Value) : Value :=
  (at? row path).getD .null

/-- The rows with their keys. -/
def withKeys (path : String) (rows : List Value) : List (Value × Value) :=
  rows.map fun row => (keyAt path row, row)

theorem rowsOf_withKeys (path : String) (rows : List Value) (key : Value) :
    rowsOf (withKeys path rows) key = rows.filter fun row => keyAt path row == key := by
  rw [rowsOf, withKeys, List.filter_map, List.map_map]
  exact List.map_id _

theorem isKey_of_mem_withKeys {path : String} {rows : List Value}
    (h : ∀ row ∈ rows, (keyAt path row).IsKey) : ∀ x ∈ withKeys path rows, x.1.IsKey := by
  intro x hx
  obtain ⟨row, hrow, rfl⟩ := List.mem_map.mp hx
  exact h row hrow

theorem evaluate?_reference {path : String} (h : path.toList.head? ≠ some '$') (row : Value) :
    evaluate? row (Pipeline.reference path) = some (keyAt path row) := by
  have hlist : ("$" ++ path).toList = '$' :: path.toList := by
    simp
  have hroot : "$" ++ path ≠ "$$ROOT" := by
    intro heq
    have htail : path.toList = "$ROOT".toList := by
      rw [heq] at hlist
      exact (List.cons.inj hlist).2.symm
    rw [htail] at h
    exact h rfl
  show evaluate? row (.text ("$" ++ path)) = _
  rw [evaluate?, if_neg hroot, hlist]
  show some ((at? row (String.ofList path.toList)).getD .null) = _
  rw [String.ofList_toList, keyAt]

theorem mapM_eq_some_map {α β : Type} {f : α → Option β} {g : α → β} {xs : List α}
    (h : ∀ x ∈ xs, f x = some (g x)) : xs.mapM f = some (xs.map g) :=
  (mapM_congr h).trans List.mapM_pure

theorem mapM_withKeys {path : String} (h : path.toList.head? ≠ some '$') (rows : List Value) :
    (rows.mapM fun row =>
      (evaluate? row (Pipeline.reference path)).map fun key => (key, row)) =
        some (withKeys path rows) := by
  simp only [evaluate?_reference h, Option.map_some]
  exact List.mapM_pure

/-! ## Groups -/

theorem sum?_ones (members : List Value) :
    sum? (members.map fun _ => .int 1) = some (members.length : Int) := by
  induction members with
  | nil => rfl
  | cons m members ih =>
    rw [List.map_cons, sum?, ih, List.length_cons, Option.map_some, Int.add_comm]
    rfl

theorem accumulate?_count (members : List Value) :
    accumulate? members (Stage.single "$sum" (.int 1)) = some (.int members.length) := by
  have hones : members.mapM (evaluate? · (.int 1)) = some (members.map fun _ => .int 1) :=
    List.mapM_pure
  show (members.mapM (evaluate? · (.int 1))).bind (fun vs => (sum? vs).map Value.int) = _
  rw [hones, Option.bind_some, sum?_ones, Option.map_some]

theorem accumulate?_collect (members : List Value) :
    accumulate? members (Stage.single "$push" (.text "$$ROOT")) = some (.list members) := by
  have hself : ∀ row, evaluate? row (.text "$$ROOT") = some row := by
    intro row
    rw [evaluate?, if_pos rfl]
  have hrows : members.mapM (evaluate? · (.text "$$ROOT")) = some members := by
    simp only [hself]
    exact List.mapM_pure.trans (congrArg some (List.map_id members))
  show (members.mapM (evaluate? · (.text "$$ROOT"))).bind (fun vs => some (Value.list vs)) = _
  rw [hrows, Option.bind_some]

/-- The row of a group. -/
def groupFields (collects : Bool) (g : Value × List Value) : List (String × Value) :=
  ("count", .int g.2.length) :: if collects then [("members", .list g.2)] else []

theorem groupRow?_counts (collects : Bool) (g : Value × List Value) :
    groupRow? ((Encoding.countingFields collects).map fun (k, v) => (.text k, v)) g =
      some (.object (("_id", g.1) :: groupFields collects g)) := by
  unfold groupRow? Encoding.countingFields groupFields
  cases collects
  · simp [accumulate?_count, Value.object]
  · simp [accumulate?_count, accumulate?_collect, Value.object]

theorem stage?_counts {path : String} (h : path.toList.head? ≠ some '$') (collects : Bool)
    (rows : List Value) : stage? search rows (countsDocument path collects) =
      some ((gather (withKeys path rows)).map fun g =>
        .object (("_id", g.1) :: groupFields collects g)) := by
  have hgroup : stage? search rows (countsDocument path collects) =
      (rows.mapM fun row => (evaluate? row (Pipeline.reference path)).map fun key =>
        (key, row)).bind fun keyed => (gather keyed).mapM
          (groupRow? ((Encoding.countingFields collects).map fun (k, v) => (.text k, v))) := by
    cases collects <;> rfl
  rw [hgroup, mapM_withKeys h, Option.bind_some]
  exact mapM_eq_some_map fun g _ => groupRow?_counts collects g

theorem stage?_keys {path : String} (h : path.toList.head? ≠ some '$') (rows : List Value) :
    stage? search rows (keysDocument path) =
      some ((gather (withKeys path rows)).map fun g => .object [("_id", g.1)]) := by
  have hgroup : stage? search rows (keysDocument path) =
      (rows.mapM fun row => (evaluate? row (Pipeline.reference path)).map fun key =>
        (key, row)).bind fun keyed => (gather keyed).mapM (groupRow? []) := rfl
  rw [hgroup, mapM_withKeys h, Option.bind_some]
  exact mapM_eq_some_map fun _ _ => rfl

/-! ## Projections -/

theorem projected?_kept {row v : Value} {name : String} (h : at? row name = some v) :
    projected? row (.text name) (.int 1) = some [(.text name, v)] := by
  have hflag : (Value.int 1 == .int 1) = true := by decide
  unfold projected?
  rw [if_pos hflag]
  show some ((at? row name).toList.map _) = _
  rw [h]
  rfl

theorem projected?_id {row v name : Value} (h : at? row "_id" = some v) :
    projected? row name (.text "$_id") = some [(name, v)] := by
  have hflag : (Value.text "$_id" == .int 1) = false := by decide
  have hreference : evaluate? row (.text "$_id") = some v := by
    rw [evaluate?, if_neg (by decide)]
    show some ((at? row "_id").getD .null) = _
    rw [h]
    rfl
  unfold projected?
  rw [hflag, if_neg Bool.false_ne_true]
  show (evaluate? row (.text "$_id")).map _ = _
  rw [hreference]
  rfl

theorem project?_rename (collects : Bool) (g : Value × List Value) :
    project? ((Encoding.renamingFields collects).map fun (k, v) => (.text k, v))
      (.object (("_id", g.1) :: groupFields collects g)) =
        some (.object (("key", g.1) :: groupFields collects g)) := by
  let row : Value := .object (("_id", g.1) :: groupFields collects g)
  let kept : List (Value × Value) := [(.text "key", .text "$_id"), (.text "count", .int 1)]
    ++ if collects then [(.text "members", .int 1)] else []
  have hid : at? row "_id" = some g.1 := Selection.at?_object (by decide) _
  have hcount : at? row "count" = some (.int g.2.length) := Selection.at?_object (by decide) _
  have hfields : project? ((Encoding.renamingFields collects).map fun f => (.text f.1, f.2)) row =
      (kept.mapM fun f => projected? row f.1 f.2).bind fun kept =>
        some (.map kept.flatten) := by
    cases collects <;> rfl
  have hkept : (kept.mapM fun f => projected? row f.1 f.2) =
      some ((("key", g.1) :: groupFields collects g).map fun f => [(.text f.1, f.2)]) := by
    rw [mapM_eq_some_iff]
    cases collects with
    | false => exact .cons (projected?_id hid) (.cons (projected?_kept hcount) .nil)
    | true =>
      have hmembers : at? row "members" = some (.list g.2) := Selection.at?_object (by decide) _
      exact .cons (projected?_id hid)
        (.cons (projected?_kept hcount) (.cons (projected?_kept hmembers) .nil))
  show project? _ row = _
  rw [hfields, hkept, Option.bind_some]
  cases collects <;> rfl

theorem stage?_rename (collects : Bool) (groups : List (Value × List Value)) :
    stage? search (groups.map fun g => .object (("_id", g.1) :: groupFields collects g))
      (renameDocument collects) =
        some (groups.map fun g => .object (("key", g.1) :: groupFields collects g)) := by
  show (groups.map _).mapM (project? _) = _
  rw [List.mapM_map]
  exact mapM_eq_some_map fun g _ => project?_rename collects g

theorem project?_values (g : Value × List Value) :
    project? [(.text "_id", .int 0), (.text "value", .text "$_id")] (.object [("_id", g.1)]) =
      some (.object [("value", g.1)]) := by
  have hid := Selection.at?_object (by decide : '.' ∉ "_id".toList) [("_id", g.1)]
  have hfields : project? [(.text "_id", .int 0), (.text "value", .text "$_id")]
      (.object [("_id", g.1)]) =
        ([(Value.text "value", Value.text "$_id")].mapM fun (name, spec) =>
          projected? (.object [("_id", g.1)]) name spec).bind fun kept =>
            some (.map kept.flatten) := rfl
  rw [hfields, List.mapM_cons]
  simp only [projected?_id hid]
  rfl

theorem stage?_values (groups : List (Value × List Value)) :
    stage? search (groups.map fun g => .object [("_id", g.1)]) valuesDocument =
      some (groups.map fun g => .object [("value", g.1)]) := by
  show (groups.map _).mapM (project? _) = _
  rw [List.mapM_map]
  exact mapM_eq_some_map fun g _ => project?_values g

end DocQuery.Store
