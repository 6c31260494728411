-- SUMMARY: An encoded body selects a stored document exactly when the wire body selects its wire form.
import DocQuery.Document
import DocQuery.Proofs.FieldName
import DocQuery.Proofs.Selection
import DocQuery.Proofs.Wire.Tagged

/-!
# Selection of stored documents

A body is encoded for the store so that it can be put to the documents there. It then
selects those documents whose wire form the body itself selects: the encoder and the
decoder agree on names, pointers and dates.
-/

namespace DocQuery.Selection

open FieldName (IsField toStorage ofStorage pointerColumn)

/-! ## Stored documents -/

/-- A point in time as the store keeps it: a UTC reading of whole milliseconds whose year
    has four digits. -/
structure IsStamp (t : DateTime) : Prop where
  valid : t.isValid = true
  utc : t.offset = some 0
  whole : t.micro % 1000 = 0
  year : 1000 ≤ t.date.year

/-- A column with its value as the store keeps it. -/
inductive IsColumn : String → Value → Prop
  | id {v : Value} (h : v.isText = true) : IsColumn "_id" v
  | created {t : DateTime} (h : IsStamp t) : IsColumn "_created_at" (.datetime t)
  | updated {t : DateTime} (h : IsStamp t) : IsColumn "_updated_at" (.datetime t)
  | pointer (field : String) {p : Pointer} (h : '$' ∉ p.className.toList) :
    IsColumn ("_p_" ++ field) (.text p.compact)
  | plain {name : String} {v : Value} (hname : IsField name)
    (hsystem : name ∉ FieldName.systemNames) (h : v.IsScalar) : IsColumn name v

/-- The columns of a stored document. No two are decoded to one name. -/
structure IsStored (columns : List (String × Value)) : Prop where
  column : ∀ c ∈ columns, IsColumn c.1 c.2
  names : (columns.map fun c => ofStorage c.1).Nodup

/-- A column with its value, beside the field and value that are shown for it. -/
inductive Shown : String × Value → String × Value → Prop
  | id {v : Value} (h : v.isText = true) : Shown ("_id", v) ("objectId", v)
  | created {t : DateTime} (h : IsStamp t) :
    Shown ("_created_at", .datetime t) ("createdAt", Wire.taggedDate (.text t.wireText))
  | updated {t : DateTime} (h : IsStamp t) :
    Shown ("_updated_at", .datetime t) ("updatedAt", Wire.taggedDate (.text t.wireText))
  | pointer (field : String) {p : Pointer} (h : '$' ∉ p.className.toList) :
    Shown ("_p_" ++ field, .text p.compact) (field, p.toWire)
  | plain {name : String} {v : Value} (hname : IsField name)
    (hsystem : name ∉ FieldName.systemNames) (h : v.IsScalar) : Shown (name, v) (name, v)

/-! ## Their wire form -/

theorem toList_mark (field : String) :
    ("_p_" ++ field).toList = '_' :: 'p' :: '_' :: field.toList := by
  simp

theorem column_of_lead {name : String} (hlead : name.toList.head? ≠ some '_') :
    Document.column name = .plain name := by
  have hne : ∀ s : String, s.toList.head? = some '_' → name ≠ s := by
    rintro s hs rfl
    exact hlead hs
  have hpointer : FieldName.hasMark FieldName.pointerMark name = false :=
    FieldName.hasMark_cons hlead
  have hincluded : FieldName.hasMark FieldName.includedMark name = false :=
    FieldName.hasMark_cons hlead
  rw [Document.column, if_neg (hne "_id" rfl), if_neg (hne "_created_at" rfl),
    if_neg (hne "_updated_at" rfl), hpointer, if_neg (hne "_acl" rfl), hincluded, if_neg hlead]
  simp

theorem column_of_isField {name : String} (h : IsField name) :
    Document.column name = .plain name :=
  column_of_lead h.column

theorem column_mark (field : String) : Document.column ("_p_" ++ field) = .pointer field := by
  have hlist := toList_mark field
  have hne : ∀ s : String, s.toList.drop 1 ≠ 'p' :: '_' :: field.toList → "_p_" ++ field ≠ s := by
    rintro s hs rfl
    rw [hlist] at hs
    exact hs rfl
  have hmark : FieldName.hasMark FieldName.pointerMark ("_p_" ++ field) = true := by
    show List.isPrefixOf ['_', 'p', '_'] ("_p_" ++ field).toList = true
    rw [hlist]
    rfl
  have hunmarked : FieldName.unmarked FieldName.pointerMark ("_p_" ++ field) = field := by
    show String.ofList (("_p_" ++ field).toList.drop 3) = field
    rw [hlist]
    exact String.ofList_toList
  rw [Document.column, if_neg (hne "_id" (by simp)), if_neg (hne "_created_at" (by simp)),
    if_neg (hne "_updated_at" (by simp)), if_pos hmark, hunmarked]

theorem storedPointer_compact {p : Pointer} (hp : '$' ∉ p.className.toList) :
    Document.storedPointer (.text p.compact) = p.toWire := by
  simp only [Document.storedPointer, Value.text?, Pointer.dropWhile_compact hp,
    Pointer.takeWhile_compact hp, String.ofList_toList]

/-- Each column is shown under the name that its own decodes to. -/
theorem exists_shown {name : String} {v : Value} (h : IsColumn name v) :
    ∃ f, Shown (name, v) f ∧ f.1 = ofStorage name ∧
      (Document.stored v).outcome name = some (f.1, .ok f.2) := by
  cases h with
  | id hv =>
    refine ⟨_, .id hv, rfl, ?_⟩
    cases v with
    | text s => rfl
    | brokenText t => rfl
    | tagKey k => rfl
    | _ => cases hv
  | @created t ht =>
    refine ⟨_, .created ht, rfl, ?_⟩
    show some ("createdAt", Wire.date (.datetime t)) = _
    rw [Wire.date_of_offset ht.utc]
  | @updated t ht =>
    refine ⟨_, .updated ht, rfl, ?_⟩
    show some ("updatedAt", Wire.date (.datetime t)) = _
    rw [Wire.date_of_offset ht.utc]
  | @pointer field p hp =>
    refine ⟨_, .pointer field hp, (FieldName.ofStorage_mark (toList_mark field)).symm, ?_⟩
    rw [Document.StoredColumn.outcome, Document.columnOutcome, column_mark]
    show some (field, Except.ok (Document.storedPointer (.text p.compact))) = _
    rw [storedPointer_compact hp]
  | plain hname hsystem hv =>
    refine ⟨_, .plain hname hsystem hv, (FieldName.ofStorage_of_lead hname.column).symm, ?_⟩
    rw [Document.StoredColumn.outcome, Document.columnOutcome, column_of_isField hname]
    cases hv <;> rfl

/-- The columns beside the fields that are shown for them, in order. -/
abbrev ShownAll (columns fields : List (String × Value)) : Prop :=
  List.Forall₂ (fun c f => Shown c f ∧ f.1 = ofStorage c.1) columns fields

theorem ShownAll.keys {columns fields : List (String × Value)} (h : ShownAll columns fields) :
    Assoc.keys fields = columns.map fun c => ofStorage c.1 := by
  induction h with
  | nil => rfl
  | cons hhead _ ih => rw [Assoc.keys_cons, ih, hhead.2, List.map_cons]

theorem storedColumns_object (columns : List (String × Value)) :
    Document.storedColumns (columns.map fun (k, v) => (Value.text k, v)) =
      columns.map fun (k, v) => (k, Document.stored v) := by
  induction columns with
  | nil => rfl
  | cons c columns ih =>
    rw [List.map_cons, Document.storedColumns, ih]
    rfl

theorem collect_outcomes {columns : List (String × Value)}
    (h : ∀ c ∈ columns, IsColumn c.1 c.2) : ∃ fields, ShownAll columns fields ∧
      Document.collect ((columns.map fun c => (Document.stored c.2).outcome c.1).filterMap id) =
        .ok fields := by
  induction columns with
  | nil => exact ⟨[], .nil, rfl⟩
  | cons c columns ih =>
    obtain ⟨f, hshown, hname, houtcome⟩ := exists_shown (h c List.mem_cons_self)
    obtain ⟨fields, hfields, hcollect⟩ := ih fun c' hc' => h c' (List.mem_cons_of_mem c hc')
    refine ⟨f :: fields, .cons ⟨hshown, hname⟩ hfields, ?_⟩
    have houtcomes : (((c :: columns).map fun c => (Document.stored c.2).outcome c.1).filterMap
        id) = (f.1, .ok f.2) ::
          (columns.map fun c => (Document.stored c.2).outcome c.1).filterMap id := by
      rw [List.map_cons, houtcome]
      rfl
    rw [houtcomes, Document.collect, hcollect]
    rfl

/-- A stored document has a wire form, with a field for each column. -/
theorem toWire_stored {columns : List (String × Value)} (h : IsStored columns) :
    ∃ fields, ShownAll columns fields ∧
      Document.toWire (.object columns) .null = .ok (.object fields) := by
  obtain ⟨fields, hfields, hcollect⟩ := collect_outcomes h.column
  refine ⟨fields, hfields, ?_⟩
  have hnodup : (Assoc.keys fields).Nodup := by
    rw [hfields.keys]
    exact h.names
  have hcolumns : Document.ofColumns (columns.map fun (k, v) => (k, Document.stored v)) =
      .ok fields := by
    rw [Document.ofColumns, List.map_map, Document.assemble]
    show (Document.collect ((columns.map fun c =>
      (Document.stored c.2).outcome c.1).filterMap id)).map Assoc.ofPairs = _
    rw [hcollect]
    exact congrArg Except.ok (Assoc.ofPairs_of_nodup hnodup)
  rw [Value.object, Document.toWire, storedColumns_object, hcolumns]
  rfl

/-! ## What a clause finds -/

/-- What is found at the column, at the pointer column and at the shown field of a name. -/
inductive Found : Option Value → Option Value → Option Value → Prop
  | absent : Found none none none
  | plain {v : Value} (h : v.IsScalar) : Found (some v) none (some v)
  | stamp {t : DateTime} (h : IsStamp t) :
    Found (some (.datetime t)) none (some (Wire.taggedDate (.text t.wireText)))
  | pointer {p : Pointer} (h : '$' ∉ p.className.toList) :
    Found none (some (.text p.compact)) (some p.toWire)

theorem Found.eq_absent {x y : Option Value} (h : Found x y none) : x = none ∧ y = none := by
  cases h
  exact ⟨rfl, rfl⟩

theorem Shown.found {c f : String × Value} (h : Shown c f) (hfield : IsField f.1) :
    Found (Assoc.find? (toStorage f.1) [c]) (Assoc.find? (pointerColumn f.1) [c]) (some f.2) := by
  have hsystem : ∀ column name : String, column ∈ FieldName.systemNames →
      (column == pointerColumn name) = false := by
    intro column name hcolumn
    rw [beq_eq_false_iff_ne]
    rintro rfl
    exact FieldName.pointerColumn_not_mem_systemNames name hcolumn
  cases h with
  | id hv =>
    have hnone := hsystem "_id" "objectId" (by decide)
    simp only [Assoc.find?, hnone]
    exact .plain (Value.isScalar_of_isText hv)
  | created ht =>
    have hnone := hsystem "_created_at" "createdAt" (by decide)
    simp only [Assoc.find?, hnone]
    exact .stamp ht
  | updated ht =>
    have hnone := hsystem "_updated_at" "updatedAt" (by decide)
    simp only [Assoc.find?, hnone]
    exact .stamp ht
  | @pointer field p hp =>
    have hself : "_p_" ++ field = pointerColumn field := by
      rw [← String.toList_inj, toList_mark, FieldName.toList_pointerColumn hfield.column]
    have hnone : (pointerColumn field == toStorage field) = false :=
      beq_eq_false_iff_ne.mpr (FieldName.toStorage_ne_pointerColumn hfield.column field).symm
    simp only [Assoc.find?, hself, hnone, beq_self_eq_true, if_true]
    exact .pointer hp
  | @plain name v hname hplain hv =>
    have hself : toStorage name = name := FieldName.toStorage_of_not_mem hplain
    have hnone : (name == pointerColumn name) = false := by
      rw [beq_eq_false_iff_ne]
      intro heq
      exact FieldName.toStorage_ne_pointerColumn hname.column name (hself.trans heq)
    simp only [Assoc.find?, hself, hnone, beq_self_eq_true, if_true]
    exact .plain hv

/-- In a stored document, column and pointer column of a name hold what the field shows. -/
theorem found {columns fields : List (String × Value)} (h : ShownAll columns fields)
    (hnodup : (Assoc.keys fields).Nodup) {name : String} (hname : IsField name) :
    Found (Assoc.find? (toStorage name) columns) (Assoc.find? (pointerColumn name) columns)
      (Assoc.find? name fields) := by
  induction h with
  | nil => exact .absent
  | @cons c f columns fields hhead htail ih =>
    obtain ⟨column, v⟩ := c
    obtain ⟨field, w⟩ := f
    simp only [Assoc.keys_cons, List.nodup_cons] at hnodup
    have hrest := ih hnodup.2
    by_cases hfield : field = name
    · subst hfield
      have hnone : Assoc.find? field fields = none := Assoc.find?_eq_none_iff.mpr hnodup.1
      rw [hnone] at hrest
      obtain ⟨hcolumn, hpointer⟩ := hrest.eq_absent
      have hhere := hhead.1.found hname
      simp only [Assoc.find?, hcolumn, hpointer, beq_self_eq_true, if_true] at hhere ⊢
      exact hhere
    · have hcolumn : (column == toStorage name) = false := by
        rw [beq_eq_false_iff_ne]
        rintro rfl
        exact hfield (hhead.2.trans (FieldName.ofStorage_toStorage hname.column))
      have hpointer : (column == pointerColumn name) = false := by
        rw [beq_eq_false_iff_ne]
        rintro rfl
        exact hfield (hhead.2.trans (FieldName.ofStorage_pointerColumn hname.column))
      have hshown : (field == name) = false := beq_eq_false_iff_ne.mpr hfield
      simp only [Assoc.find?, hcolumn, hpointer, hshown]
      exact hrest

end DocQuery.Selection
