-- SUMMARY: The documents as which the stages of counts, groupings and distinct values reach the store.
import DocQuery.Proofs.Except
import DocQuery.Proofs.FieldName
import DocQuery.Proofs.FieldName.Spelling
import DocQuery.Proofs.Selection
import DocQuery.Query.Run

/-!
# Encoded stages

A stage is written as a document, and the document is encoded for the store. References
then name columns: the first step of a path is respelled, and the names of computed fields
stay as they are.
-/

namespace DocQuery

/-! ## Paths in the store -/

namespace FieldName

/-- The path of a field in the store: its first step is a column. -/
def storedPath (path : String) : String :=
  toStorage (String.ofList (path.toList.takeWhile (· != '.')))
    ++ String.ofList (path.toList.dropWhile (· != '.'))

theorem head?_storedPath {path : String} (h : path.toList.head? ≠ some '$') :
    (storedPath path).toList.head? ≠ some '$' := by
  have hhead : (String.ofList (path.toList.takeWhile (· != '.'))).toList.head? ≠ some '$' := by
    rw [String.toList_ofList]
    cases hpath : path.toList with
    | nil => simp
    | cons c cs =>
      rw [hpath, List.head?_cons] at h
      rw [List.takeWhile_cons]
      split
      · exact h
      · simp
  have htail : (path.toList.dropWhile (· != '.')).head? ≠ some '$' := by
    intro hlead
    have := List.head?_dropWhile_not (· != '.') path.toList
    simp [hlead] at this
  have hcolumn := operator_toStorage hhead
  rw [storedPath, String.toList_append, String.toList_ofList]
  cases hstorage : (toStorage (String.ofList (path.toList.takeWhile (· != '.')))).toList with
  | nil => exact htail
  | cons c cs =>
    rw [hstorage] at hcolumn
    exact hcolumn

theorem storedPath_of_operator {path : String} {cs : List Char} (h : path.toList = '$' :: cs) :
    storedPath path = path := by
  have hhead : toStorage (String.ofList (path.toList.takeWhile (· != '.'))) =
      String.ofList (path.toList.takeWhile (· != '.')) := by
    refine toStorage_of_not_mem (operator_not_mem_systemNames ?_)
    rw [String.toList_ofList, h]
    rfl
  rw [storedPath, hhead, ← String.ofList_append, List.takeWhile_append_dropWhile,
    String.ofList_toList]

theorem head?_toStorageAs (name : String) :
    (toStorageAs true name).toList.head? ≠ some '$' := by
  unfold toStorageAs
  cases hlookup : systemColumns.lookup name with
  | some column =>
    have hcolumn : column ∈ systemColumns.map (·.2) := by
      obtain ⟨_, _, hsplit, _⟩ := List.lookup_eq_some_iff.mp hlookup
      rw [hsplit]
      simp
    show column.toList.head? ≠ some '$'
    simp only [systemColumns, List.map_cons, List.map_nil, List.mem_cons, List.not_mem_nil,
      or_false] at hcolumn
    rcases hcolumn with rfl | rfl | rfl <;> decide
  | none =>
    obtain ⟨cs, hcs⟩ := exists_pointerColumn name
    rw [if_pos rfl, hcs]
    simp

/-- The path at which the store finds the values of a field, or of its pointer column. -/
def keyPath (pointer : Bool) (field : String) : String :=
  storedPath (if pointer then toStorageAs true field else field)

theorem head?_column {field : String} (h : field.toList.head? ≠ some '$') (pointer : Bool) :
    (if pointer then toStorageAs true field else field).toList.head? ≠ some '$' := by
  cases pointer
  · exact h
  · exact head?_toStorageAs field

theorem head?_keyPath {field : String} (h : field.toList.head? ≠ some '$') (pointer : Bool) :
    (keyPath pointer field).toList.head? ≠ some '$' :=
  head?_storedPath (head?_column h pointer)

end FieldName

namespace Order

/-- The column that an ordering sorts by. -/
def column (o : Order) : String :=
  FieldName.toStorage (FieldName.wire (.text o.field))

/-- The columns of orderings with their directions, as they were declared. -/
def columns (orders : List Order) : List (String × Direction) :=
  orders.map fun o => (o.column, o.direction)

/-- The columns that rows are sorted by. Of orderings for one column the first gives the
    place, and the last the direction. -/
def sortColumns (orders : List Order) : List (String × Direction) :=
  Assoc.ofPairs (columns orders)

theorem keys_columns (orders : List Order) : Assoc.keys (columns orders) = orders.map column := by
  rw [Assoc.keys, columns, List.map_map]
  rfl

theorem column_mem_of_mem_sortColumns {orders : List Order} {c : String × Direction}
    (h : c ∈ sortColumns orders) : c.1 ∈ orders.map column := by
  rw [← keys_columns]
  exact Assoc.mem_keys_ofPairs.mp (List.mem_map_of_mem h)

/-- Orderings for different columns sort as they were declared. -/
theorem sortColumns_of_nodup {orders : List Order} (h : (orders.map column).Nodup) :
    sortColumns orders = columns orders := by
  rw [← keys_columns] at h
  exact Assoc.ofPairs_of_nodup h

/-- The wire fields of orderings with their directions, as they were declared. -/
def wireColumns (orders : List Order) : List (String × Direction) :=
  orders.map fun o => (FieldName.wire (.text o.field), o.direction)

/-- The columns that rows are sorted by, whatever fields the orderings name. Of orderings for one
    field, and then of fields kept in one column, the first gives the place, and the last the
    direction. -/
def storedColumns (orders : List Order) : List (String × Direction) :=
  let fields := Assoc.ofPairs (orders.map fun o => (FieldName.wire (.text o.field), o.direction))
  Assoc.ofPairs (fields.map fun c => (FieldName.toStorage c.1, c.2))

/-- Orderings for different fields are joined by their columns only. -/
theorem storedColumns_of_nodup {orders : List Order}
    (h : (orders.map fun o => FieldName.wire (.text o.field)).Nodup) :
    storedColumns orders = sortColumns orders := by
  have hfields : (Assoc.keys (orders.map fun o =>
      (FieldName.wire (.text o.field), o.direction))).Nodup := by
    rw [Assoc.keys, List.map_map]
    exact h
  rw [storedColumns, Assoc.ofPairs_of_nodup hfields, List.map_map]
  rfl

/-- Of two orderings for one column only the direction of the second is left. -/
theorem sortColumns_pair {a b : Order} (h : a.column = b.column) :
    sortColumns [a, b] = [(a.column, b.direction)] := by
  rw [sortColumns, columns, List.map_cons, List.map_cons, List.map_nil, ← h, Assoc.ofPairs,
    Assoc.merge_cons, Assoc.merge_cons, Assoc.merge_nil, Assoc.assign, Assoc.assign_cons_self]

end Order

namespace Encoding

open FieldName (keyPath storedPath)

/-- A reference is respelled as its path is. What follows a second dollar sign names no
    field, and is no system field either. -/
theorem reference_path (path : String) : reference ("$" ++ path) = "$" ++ storedPath path := by
  have hlist : ("$" ++ path).toList = '$' :: path.toList := by
    simp
  unfold reference
  rw [hlist]
  split
  · rename_i cs heq
    rw [FieldName.storedPath_of_operator (List.cons.inj heq).2]
  · rename_i heq
    rw [← (List.cons.inj heq).2, storedPath, String.append_assoc]
  · rename_i hother
    exact absurd rfl (hother path.toList)

/-- A reference to a field reaches the store as a reference to its path there. -/
theorem reference_keyPath (field : String) (pointer : Bool) :
    Pipeline.reference (keyPath pointer field) =
      .text (reference ("$" ++ if pointer then FieldName.toStorageAs true field else field)) := by
  rw [reference_path]
  rfl

/-! ## Stages -/

theorem stage_single {op : String} {body w : Value} (h : stageBody .storage op body = .ok w) :
    stage .storage (Stage.single op body) = .ok (Stage.single op w) := by
  have hmap : stage .storage (Stage.single op body) = (do
    let fields ← [(op, body)].mapM fun f => do
      let w ← stageBody .storage f.1 f.2
      .ok (f.1, w)
    .ok (.object fields)) := rfl
  rw [hmap, List.mapM_cons]
  simp only [h]
  rfl

/-- A stage reaches the store as a document. -/
def Reaches (s : Stage) (doc : Value) : Prop :=
  ∃ written, s.toDocument = .ok written ∧ stage .storage written = .ok doc

/-- A pipeline of stages reaches the store as the documents of its stages. -/
theorem pipeline_of_reaches {stages : List Stage} {docs : List Value}
    (h : List.Forall₂ Reaches stages docs) : ∃ written, Stage.toPipeline stages = .ok written ∧
      pipeline .storage (.list written) = .ok docs := by
  have hwritten : ∃ written, stages.mapM Stage.toDocument = .ok written ∧
      written.mapM (stage .storage) = .ok docs := by
    induction h with
    | nil => exact ⟨[], rfl, rfl⟩
    | @cons s doc stages docs hhead _ ih =>
      obtain ⟨v, hv, hdoc⟩ := hhead
      obtain ⟨vs, hvs, hdocs⟩ := ih
      refine ⟨v :: vs, ?_, ?_⟩
      · rw [List.mapM_cons, hv, hvs]
        rfl
      · rw [List.mapM_cons, hdoc, hdocs]
        rfl
  exact hwritten

theorem reaches_filter {body encoded : Value} (h : matchBody .storage body = .ok encoded) :
    Reaches (.filter body) (Stage.single "$match" encoded) :=
  ⟨_, rfl, stage_single h⟩

theorem reaches_count (name : String) :
    Reaches (.count (.text name)) (Stage.single "$count" (.text name)) :=
  ⟨_, rfl, stage_single rfl⟩

/-! ## Sorts -/

/-- The fields of a sort by columns. -/
def sortFields (columns : List (String × Direction)) : List (String × Value) :=
  columns.map fun c => (c.1, .int c.2.sign)

/-- The document of a sort by columns. -/
def sortDocument (columns : List (String × Direction)) : Value :=
  Stage.single "$sort" (.object (sortFields columns))

theorem ofPairs_sortFields (columns : List (String × Direction)) :
    Assoc.ofPairs (sortFields columns) = sortFields (Assoc.ofPairs columns) :=
  Assoc.ofPairs_map (fun _ _ => rfl) (fun c : Direction => Value.int c.sign) columns

/-- The document of a sort stage has each column once. -/
theorem toDocument_sort (columns : List (String × Direction)) :
    (Stage.sort ((sortFields columns).map fun (k, v) => (.text k, v))).toDocument =
      .ok (sortDocument (Assoc.ofPairs columns)) := by
  rw [Stage.toDocument, if_pos (Selection.allCanBeKeys_object _), Selection.ofPairs_object,
    ofPairs_sortFields]
  rfl

theorem sortStage?_eq (orders : List Order) : Pipeline.sortStage? orders =
    if orders.isEmpty then none
    else some (.sort ((sortFields (Order.wireColumns orders)).map fun (k, v) => (.text k, v))) := by
  rw [Pipeline.sortStage?, Order.wireColumns, sortFields, List.map_map, List.map_map]
  rfl

/-- Orderings reach the store as a sort by the columns of their fields. -/
theorem reaches_storedSort {orders : List Order} {s : Stage}
    (hs : Pipeline.sortStage? orders = some s) :
    Reaches s (sortDocument (Order.storedColumns orders)) := by
  have hdocument : s.toDocument =
      .ok (sortDocument (Assoc.ofPairs (Order.wireColumns orders))) := by
    rw [sortStage?_eq] at hs
    split at hs
    · cases hs
    · cases hs
      exact toDocument_sort _
  let fields := Assoc.ofPairs (Order.wireColumns orders)
  refine ⟨_, hdocument, stage_single ?_⟩
  have hbody : stageBody .storage "$sort" (.object (sortFields fields)) =
      .ok (.object (Assoc.ofPairs (((sortFields fields).map
        fun f => (Value.text f.1, f.2)).map fun f => (sortKey .storage f.1, f.2)))) := rfl
  have hencoded : ((sortFields fields).map fun f => (Value.text f.1, f.2)).map
      (fun f => (sortKey .storage f.1, f.2)) =
        sortFields (fields.map fun c => (FieldName.toStorage c.1, c.2)) := by
    simp only [sortFields, List.map_map]
    rfl
  rw [hbody, hencoded, ofPairs_sortFields]
  rfl

/-- Orderings for different fields reach the store as a sort by their columns. -/
theorem reaches_sort {orders : List Order}
    (h : (orders.map fun o => FieldName.wire (.text o.field)).Nodup) {s : Stage}
    (hs : Pipeline.sortStage? orders = some s) :
    Reaches s (sortDocument (Order.sortColumns orders)) :=
  Order.storedColumns_of_nodup h ▸ reaches_storedSort hs

/-! ## Pages and kept fields -/

theorem reaches_skip (n : Value) : Reaches (.skip n) (Stage.single "$skip" n) :=
  ⟨_, rfl, stage_single rfl⟩

theorem reaches_limit (n : Value) : Reaches (.limit n) (Stage.single "$limit" n) :=
  ⟨_, rfl, stage_single rfl⟩

/-- The fields of a projection that keeps columns. -/
def keepFields (columns : List String) : List (String × Value) :=
  columns.map fun c => (c, .int 1)

/-- The document of a projection that keeps columns. -/
def keepDocument (columns : List String) : Value :=
  Stage.single "$project" (.object (keepFields columns))

/-- The names, each of them once. -/
def namedOnce (names : List String) : List String :=
  Assoc.keys (Assoc.ofPairs (keepFields names))

theorem ofPairs_keepFields (names : List String) :
    Assoc.ofPairs (keepFields names) = keepFields (namedOnce names) := by
  have hwritten : ∀ f ∈ keepFields names, f.2 = .int 1 := List.forall_mem_map.mpr fun _ _ => rfl
  have hflags : ∀ f ∈ Assoc.ofPairs (keepFields names), f.2 = .int 1 :=
    Assoc.forall_mem_ofPairs (P := fun v => v = Value.int 1) hwritten
  have hkept : keepFields (namedOnce names) =
      (Assoc.ofPairs (keepFields names)).map fun f => (f.1, Value.int 1) := List.map_map
  rw [hkept]
  refine (List.map_id _).symm.trans (List.map_congr_left fun f hf => ?_)
  rw [id, ← hflags f hf]

/-- The columns that a projection to named fields keeps. -/
def keptColumns (names : List String) : List String :=
  namedOnce ((namedOnce names).map FieldName.toStorage)

/-- Names of fields reach the store as a projection that keeps their columns. -/
theorem reaches_including (names : List String) :
    Reaches (.including names) (keepDocument (keptColumns names)) := by
  have hdocument : (Stage.including names).toDocument = .ok (keepDocument (namedOnce names)) := by
    rw [keepDocument, ← ofPairs_keepFields]
    rfl
  refine ⟨_, hdocument, stage_single ?_⟩
  have hentries : (((keepFields (namedOnce names)).map fun f => (Value.text f.1, f.2)).mapM
      fun f => projectionEntry .storage f.1 f.2) =
        .ok (keepFields ((namedOnce names).map FieldName.toStorage)) := by
    refine mapM_eq_ok_iff.mpr ?_
    simp only [keepFields, List.map_map, List.forall₂_map_left_iff, List.forall₂_map_right_iff]
    exact List.forall₂_same.mpr fun _ _ => rfl
  have hbody : stageBody .storage "$project" (.object (keepFields (namedOnce names))) =
      (((keepFields (namedOnce names)).map fun f => (Value.text f.1, f.2)).mapM
        fun f => projectionEntry .storage f.1 f.2).bind
          fun fields => .ok (.object (Assoc.ofPairs fields)) := rfl
  rw [hbody, hentries, keptColumns, ← ofPairs_keepFields]
  rfl

/-! ## Groupings -/

/-- The document of a grouping by a path that only keeps the keys. -/
def keysDocument (path : String) : Value :=
  Stage.single "$group" (.object [("_id", Pipeline.reference path)])

/-- The accumulators of a grouping that counts rows and perhaps collects them. -/
def countingFields (collects : Bool) : List (String × Value) :=
  ("count", Stage.single "$sum" (.int 1)) ::
    if collects then [("members", Stage.single "$push" (.text "$$ROOT"))] else []

/-- The document of a grouping by a path that counts rows and perhaps collects them. -/
def countsDocument (path : String) (collects : Bool) : Value :=
  Stage.single "$group" (.object (("_id", Pipeline.reference path) :: countingFields collects))

/-- The fields of the projection that renames the parts of a group. -/
def renamingFields (collects : Bool) : List (String × Value) :=
  [("_id", .int 0), ("key", .text "$_id"), ("count", .int 1)]
    ++ if collects then [("members", .int 1)] else []

/-- The document that renames the parts of a group. -/
def renameDocument (collects : Bool) : Value :=
  Stage.single "$project" (.object (renamingFields collects))

/-- The document that shows keys as values. -/
def valuesDocument : Value :=
  Stage.single "$project" (.object [("_id", .int 0), ("value", .text "$_id")])

theorem reaches_keys (p : DistinctPlan) :
    Reaches p.groupStage (keysDocument (keyPath p.pointer p.field)) := by
  refine ⟨_, rfl, stage_single ?_⟩
  rw [reference_keyPath]
  rfl

theorem reaches_values :
    Reaches (.project (.object [("_id", .int 0), ("value", .text "$_id")])) valuesDocument :=
  ⟨_, rfl, stage_single rfl⟩

theorem reaches_counts (p : FieldPlan) :
    Reaches ((GroupPlan.byField p).groupStage (Stage.single "$sum" (.int 1)))
      (countsDocument (keyPath p.pointer (GroupPlan.byField p).wireField) p.rowOrder.isWanted) := by
  unfold countsDocument
  rw [reference_keyPath]
  show Reaches (.group _ (.object (_ :: if p.rowOrder.isWanted then _ else []))) _
  unfold countingFields
  cases p.rowOrder.isWanted
  · exact ⟨_, rfl, stage_single rfl⟩
  · exact ⟨_, rfl, stage_single rfl⟩

theorem reaches_rename (p : FieldPlan) :
    Reaches (GroupPlan.byField p).renameStage (renameDocument p.rowOrder.isWanted) := by
  unfold GroupPlan.renameStage renameDocument renamingFields
  show Reaches (.project (.object (_ ++ if p.rowOrder.isWanted then _ else []))) _
  cases p.rowOrder.isWanted
  · exact ⟨_, rfl, stage_single rfl⟩
  · exact ⟨_, rfl, stage_single rfl⟩

end Encoding

end DocQuery
