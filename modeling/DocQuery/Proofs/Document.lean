-- SUMMARY: Wire forms of rows with plain columns, and of documents inside of rows.
import DocQuery.Proofs.Except
import DocQuery.Proofs.Selection.Stored
import DocQuery.Proofs.Value.Timely

/-!
# Wire forms

A row whose columns are plain keeps their names, and its values are shown as values inside a
document. A whole document inside a row, with an id and without a tag, is shown as it is
shown by itself.
-/

namespace DocQuery.Document

open Selection (column_of_isField storedColumns_object)
open Value (isTimely areTimely haveTimely)

/-- A value inside a document is shown as another. -/
def IsShownAs (v w : Value) : Prop :=
  (stored v).inner = .ok w

theorem isShownAs_int (n : Int) : IsShownAs (.int n) (.int n) :=
  rfl

theorem inners_eq_mapM (vs : List Value) : inners vs = vs.mapM fun v => (stored v).inner := by
  induction vs with
  | nil => rfl
  | cons v vs ih =>
    rw [inners, ih, List.mapM_cons]
    rfl

/-- A list is shown as the list of its items. -/
theorem isShownAs_list {vs ws : List Value} (h : List.Forall₂ IsShownAs vs ws) :
    IsShownAs (.list vs) (.list ws) := by
  have hitems : inners vs = .ok ws := by
    rw [inners_eq_mapM]
    exact mapM_eq_ok_iff.mpr h
  show (inners vs).map Value.list = _
  rw [hitems]
  rfl

theorem collect_of_forall₂ {outcomes : List (String × Outcome)} {shown : List (String × Value)}
    (h : List.Forall₂ (fun o s => o.1 = s.1 ∧ o.2 = .ok s.2) outcomes shown) :
    collect outcomes = .ok shown := by
  induction h with
  | nil => rfl
  | @cons o s outcomes shown hhead _ ih =>
    show (do let v ← o.2; let vs ← collect outcomes; .ok ((o.1, v) :: vs)) = _
    rw [hhead.2, ih, hhead.1]
    rfl

theorem keys_stored (columns : List (String × Value)) :
    Assoc.keys (columns.map fun c => (c.1, stored c.2)) = Assoc.keys columns := by
  rw [Assoc.keys, List.map_map]
  rfl

/-- A mapping under plain names is shown as the mapping of its values. -/
theorem isShownAs_object {fields shown : List (String × Value)}
    (hnames : ∀ f ∈ fields, f.1.toList.head? ≠ some '_') (hnodup : (Assoc.keys fields).Nodup)
    (h : List.Forall₂ (fun f s => f.1 = s.1 ∧ IsShownAs f.2 s.2) fields shown) :
    IsShownAs (.object fields) (.object shown) := by
  have habsent : ∀ name : String, name.toList.head? = some '_' →
      (Assoc.find? name (fields.map fun f => (f.1, stored f.2))).isSome = false := by
    intro name hname
    rw [Option.isSome_eq_false_iff, Option.isNone_iff_eq_none, Assoc.find?_eq_none_iff, keys_stored]
    intro hmem
    obtain ⟨f, hf, rfl⟩ := List.mem_map.mp hmem
    exact hnames f hf hname
  have hcollect : collect (fields.map fun f => (f.1, (stored f.2).inner)) = .ok shown :=
    collect_of_forall₂ (List.forall₂_map_left_iff.mpr h)
  show innerMap (storedColumns (fields.map _)) = _
  rw [storedColumns_object, innerMap, Assoc.ofPairs_of_nodup (keys_stored fields ▸ hnodup),
    habsent "__type" rfl, habsent "_id" rfl]
  show (collect ((fields.map fun f => (f.1, stored f.2)).map fun c => (c.1, c.2.inner))).map
    Value.object = _
  rw [List.map_map]
  exact congrArg (Except.map Value.object) hcollect

/-! ## Rows -/

/-- A row is shown as what is shown for its columns. -/
theorem toWire_of_outcomes {columns shown : List (String × Value)}
    (hnodup : (Assoc.keys shown).Nodup)
    (h : List.Forall₂ (fun c s => (stored c.2).outcome c.1 = some (s.1, .ok s.2)) columns shown) :
    toWire (.object columns) .null = .ok (.object shown) := by
  have hcollect : collect ((columns.map fun c => (stored c.2).outcome c.1).filterMap id) =
      .ok shown := by
    clear hnodup
    induction h with
    | nil => rfl
    | @cons c s columns shown hhead _ ih =>
      rw [List.map_cons, hhead]
      show collect ((s.1, .ok s.2) :: _) = _
      rw [collect, ih]
      rfl
  have hcolumns : ofColumns (columns.map fun c => (c.1, stored c.2)) = .ok shown := by
    rw [ofColumns, List.map_map, assemble]
    show (collect ((columns.map fun c => (stored c.2).outcome c.1).filterMap id)).map
      Assoc.ofPairs = _
    rw [hcollect]
    exact congrArg Except.ok (Assoc.ofPairs_of_nodup hnodup)
  rw [Value.object, toWire, storedColumns_object, hcolumns]
  rfl

/-- A row with plain columns keeps their names. -/
theorem toWire_of_plain {fields shown : List (String × Value)}
    (hnames : ∀ f ∈ fields, FieldName.IsField f.1) (hnodup : (Assoc.keys fields).Nodup)
    (h : List.Forall₂ (fun f s => f.1 = s.1 ∧ IsShownAs f.2 s.2) fields shown) :
    toWire (.object fields) .null = .ok (.object shown) := by
  have hkeys : Assoc.keys fields = Assoc.keys shown :=
    Assoc.keys_of_forall₂ h fun _ _ hfs => hfs.1
  refine toWire_of_outcomes (hkeys ▸ hnodup) ?_
  have hplain := (List.forall₂_and_left fields shown).mpr ⟨hnames, h⟩
  refine hplain.imp fun f s hfs => ?_
  rw [StoredColumn.outcome, columnOutcome, column_of_isField hfs.1]
  show some (f.1, (stored f.2).inner) = _
  rw [hfs.2.1, hfs.2.2]

/-! ## Documents inside of rows -/

/-- A document of a collection: columns with different names, among them an id, and none
    that tags an object. -/
inductive IsDocument : Value → Prop
  | mk {columns : List (String × Value)} (names : (Assoc.keys columns).Nodup)
    (id : "_id" ∈ Assoc.keys columns) (untagged : "__type" ∉ Assoc.keys columns) :
    IsDocument (.object columns)

/-- Inside a row, a document is shown as by itself. -/
theorem IsDocument.isShownAs {doc w : Value} (h : IsDocument doc)
    (hw : toWire doc .null = .ok w) : IsShownAs doc w := by
  cases h with
  | @mk columns names id untagged =>
    have hkeys := keys_stored columns
    have htag : (Assoc.find? "__type" (columns.map fun c => (c.1, stored c.2))).isSome =
        false := by
      rw [Option.isSome_eq_false_iff, Option.isNone_iff_eq_none, Assoc.find?_eq_none_iff, hkeys]
      exact untagged
    have hid : (Assoc.find? "_id" (columns.map fun c => (c.1, stored c.2))).isSome = true := by
      rw [Assoc.find?_isSome_iff, hkeys]
      exact id
    have hinner : (stored (.object columns)).inner =
        (ofColumns (columns.map fun c => (c.1, stored c.2))).map .object := by
      show innerMap (storedColumns (columns.map _)) = _
      rw [storedColumns_object, innerMap, Assoc.ofPairs_of_nodup (hkeys ▸ names), htag, hid]
      rfl
    rw [Value.object, toWire, storedColumns_object] at hw
    rw [IsShownAs, hinner]
    obtain ⟨fields, hfields, hobject⟩ := exists_of_bind_eq_ok hw
    rw [hfields]
    exact hobject

/-! ## Documents that can be shown -/

/-- A stored column can be shown in every place. -/
structure CanBeShown (c : StoredColumn) : Prop where
  timestamp : ∃ w, Document.timestamp c.value = .ok w
  embedded : ∃ w, c.embedded = .ok w
  inner : ∃ w, c.inner = .ok w

theorem exists_collect {outcomes : List (String × Outcome)}
    (h : ∀ o ∈ outcomes, ∃ w, o.2 = .ok w) : ∃ fields, collect outcomes = .ok fields := by
  induction outcomes with
  | nil => exact ⟨[], rfl⟩
  | cons o outcomes ih =>
    obtain ⟨hhead, hrest⟩ := List.forall_mem_cons.mp h
    obtain ⟨w, hw⟩ := hhead
    obtain ⟨fields, hfields⟩ := ih hrest
    refine ⟨(o.1, w) :: fields, ?_⟩
    show (do let v ← o.2; let vs ← collect outcomes; .ok ((o.1, v) :: vs)) = _
    rw [hw, hfields]
    rfl

theorem CanBeShown.outcome {c : StoredColumn} (h : CanBeShown c) {name : String}
    {o : String × Outcome} (ho : c.outcome name = some o) : ∃ w, o.2 = .ok w := by
  rw [StoredColumn.outcome, columnOutcome] at ho
  cases hcolumn : column name <;> rw [hcolumn] at ho <;> cases ho
  case timestamp => exact h.timestamp
  case included => exact h.embedded
  case plain => exact h.inner
  all_goals exact ⟨_, rfl⟩

theorem exists_ofColumns {columns : List (String × StoredColumn)}
    (h : ∀ c ∈ columns, CanBeShown c.2) : ∃ fields, ofColumns columns = .ok fields := by
  have houtcomes : ∀ o ∈ (columns.map fun c => c.2.outcome c.1).filterMap id,
      ∃ w, o.2 = .ok w := by
    intro o ho
    obtain ⟨found, hfound, hsome⟩ := List.mem_filterMap.mp ho
    obtain ⟨c, hc, rfl⟩ := List.mem_map.mp hfound
    exact (h c hc).outcome hsome
  obtain ⟨fields, hfields⟩ := exists_collect houtcomes
  refine ⟨Assoc.ofPairs fields, ?_⟩
  rw [ofColumns, assemble, hfields]
  rfl

theorem exists_innerMap {columns : List (String × StoredColumn)}
    (h : ∀ c ∈ columns, CanBeShown c.2) : ∃ w, innerMap columns = .ok w := by
  have hjoined : ∀ c ∈ Assoc.ofPairs columns, CanBeShown c.2 := Assoc.forall_mem_ofPairs h
  unfold innerMap
  simp only
  split
  · exact ⟨_, rfl⟩
  · split
    · obtain ⟨fields, hfields⟩ := exists_ofColumns hjoined
      rw [hfields]
      exact ⟨_, rfl⟩
    · have hinner : ∀ o ∈ (Assoc.ofPairs columns).map fun c => (c.1, c.2.inner),
          ∃ w, o.2 = .ok w := by
        intro o ho
        obtain ⟨c, hc, rfl⟩ := List.mem_map.mp ho
        exact (hjoined c hc).inner
      obtain ⟨fields, hfields⟩ := exists_collect hinner
      rw [hfields]
      exact ⟨_, rfl⟩

mutual

theorem canBeShown_stored : ∀ v : Value, isTimely v = true → CanBeShown (stored v)
  | .datetime t => by
    intro h
    rw [isTimely] at h
    obtain ⟨w, hw⟩ := (h ▸ Wire.date_overflowsUnless t).exists_ok
    exact ⟨⟨w, hw⟩, ⟨_, rfl⟩, ⟨w, hw⟩⟩
  | .list xs => by
    intro h
    rw [isTimely] at h
    obtain ⟨ws, hws⟩ := exists_inners xs h
    refine ⟨⟨_, rfl⟩, ⟨_, rfl⟩, ⟨.list ws, ?_⟩⟩
    show (inners xs).map Value.list = _
    rw [hws]
    rfl
  | .tuple xs => by
    intro h
    rw [isTimely] at h
    obtain ⟨ws, hws⟩ := exists_inners xs h
    refine ⟨⟨_, rfl⟩, ⟨_, rfl⟩, ⟨.list ws, ?_⟩⟩
    show (inners xs).map Value.list = _
    rw [hws]
    rfl
  | .map es => by
    intro h
    rw [isTimely] at h
    have hcolumns := canBeShown_columns es h
    obtain ⟨fields, hfields⟩ := exists_ofColumns hcolumns
    refine ⟨⟨_, rfl⟩, ⟨.object fields, ?_⟩, exists_innerMap hcolumns⟩
    show (ofColumns (storedColumns es)).map Value.object = _
    rw [hfields]
    rfl
  | .date _ | .objectId _ | .null | .bool _ | .int _ | .float _ | .text _ | .brokenText _
  | .tagKey _ | .set _ _ | .bytes _ | .pointer _ | .regex _ | .order _ =>
    fun _ => ⟨⟨_, rfl⟩, ⟨_, rfl⟩, ⟨_, rfl⟩⟩

theorem exists_inners : ∀ xs : List Value, areTimely xs = true → ∃ ws, inners xs = .ok ws
  | [] => fun _ => ⟨[], rfl⟩
  | x :: xs => by
    intro h
    rw [areTimely, Bool.and_eq_true] at h
    obtain ⟨w, hw⟩ := (canBeShown_stored x h.1).inner
    obtain ⟨ws, hws⟩ := exists_inners xs h.2
    refine ⟨w :: ws, ?_⟩
    rw [inners, hw, hws]
    rfl

theorem canBeShown_columns : ∀ es : List (Value × Value), haveTimely es = true →
    ∀ c ∈ storedColumns es, CanBeShown c.2
  | [] => by
    intro _ c hc
    rw [storedColumns] at hc
    cases hc
  | (k, v) :: es => by
    intro h
    rw [haveTimely, Bool.and_eq_true] at h
    rw [storedColumns]
    exact List.forall_mem_cons.mpr ⟨canBeShown_stored v h.1, canBeShown_columns es h.2⟩

end

/-- A document whose points in time all have UTC readings has a wire form. -/
theorem exists_toWire {doc : Value} (h : isTimely doc = true) :
    ∃ w, toWire doc .null = .ok w := by
  cases doc with
  | map es =>
    rw [isTimely] at h
    obtain ⟨fields, hfields⟩ := exists_ofColumns (canBeShown_columns es h)
    refine ⟨.object fields, ?_⟩
    rw [toWire, hfields]
    rfl
  | _ => exact ⟨.null, rfl⟩

end DocQuery.Document
