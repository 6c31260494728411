-- SUMMARY: A wire object that is encoded for the store is shown as itself.
import DocQuery.Proofs.Document
import DocQuery.Proofs.Encoding.Settled
import DocQuery.Proofs.Value.SameData

/-!
# Wire objects in the store

A wire object is encoded for the store as a match body is: its fields become columns, its
pointers compact texts, and its dates readings. When the document is shown, each column is
shown as the field, and what stands in it as what stood in the field. So the object comes back.
-/

namespace DocQuery.Document

open Encoding (clause clauseName matchBody operand holdsPointer hasPointerAtTop)
open Value (SameData)

/-! ## Wire objects -/

/-- The keys are different texts, none of which begins like a column or an operator. -/
structure HasNames (es : List (Value × Value)) : Prop where
  name : ∀ e ∈ es, ∃ s, e.1.text? = some s ∧ s.toList.head? ≠ some '_' ∧
    s.toList.head? ≠ some '$'
  distinct : (es.map fun e => e.1.keyText).Nodup

/-- The value is the tagged object of a reading, with its keys in any order. -/
inductive IsTaggedDate : DateTime → Value → Prop
  | mk {t : DateTime} {v : Value} (valid : t.isValid = true) (year : 1000 ≤ t.date.year)
    (h : v.SameData (Wire.taggedDate (.text t.wireText))) : IsTaggedDate t v

/-- Plain data, with tagged dates at any depth. -/
inductive IsContent : Value → Prop
  | scalar {v : Value} (h : v.IsScalar) : IsContent v
  | float (x : Binary64) : IsContent (.float x)
  | date {t : DateTime} {v : Value} (h : IsTaggedDate t v) : IsContent v
  | list {xs : List Value} (h : ∀ x ∈ xs, IsContent x) : IsContent (.list xs)
  | map {es : List (Value × Value)} (hnames : HasNames es) (h : ∀ e ∈ es, IsContent e.2) :
    IsContent (.map es)

/-- A field of a wire object with its value. The system fields have values of their own. -/
inductive IsWireField : String → Value → Prop
  | id {v : Value} (h : v.isText = true) : IsWireField "objectId" v
  | created {t : DateTime} {v : Value} (h : IsTaggedDate t v) : IsWireField "createdAt" v
  | updated {t : DateTime} {v : Value} (h : IsTaggedDate t v) : IsWireField "updatedAt" v
  | pointer {name : String} {p : Pointer} {v : Value} (hname : name ∉ FieldName.systemNames)
    (hfull : p.IsFull) (hclass : '$' ∉ p.className.toList) (h : v.SameData p.toWire) :
    IsWireField name v
  | content {name : String} {v : Value} (hname : name ∉ FieldName.systemNames)
    (h : IsContent v) : IsWireField name v

/-! ## Names -/

namespace HasNames

variable {es : List (Value × Value)}

theorem column (h : HasNames es) {e : Value × Value} (he : e ∈ es) :
    e.1.keyText.toList.head? ≠ some '_' := by
  obtain ⟨s, hs, hcolumn, _⟩ := h.name e he
  rwa [Value.keyText_of_text? hs]

theorem operator (h : HasNames es) {e : Value × Value} (he : e ∈ es) :
    e.1.keyText.toList.head? ≠ some '$' := by
  obtain ⟨s, hs, _, hoperator⟩ := h.name e he
  rwa [Value.keyText_of_text? hs]

/-- Such a mapping is no tagged object. -/
theorem not_isTagged (h : HasNames es) (type : String) :
    (Value.map es).isTagged type = false := by
  refine Value.not_isTagged_of_keys (fun e he hname => h.column he ?_) type
  rw [hname]
  rfl

/-- A mapping with the same data under the texts of its keys has the same data. -/
theorem sameData (h : HasNames es) {shown : List (String × Value)}
    (hshown : List.Forall₂ (fun e s => e.1.keyText = s.1 ∧ SameData e.2 s.2) es shown) :
    SameData (.map es) (.object shown) := by
  have hmem := (List.forall₂_and_left es shown).mpr ⟨h.name, hshown⟩
  refine .map (List.Perm.refl _) (List.forall₂_map_right_iff.mpr (hmem.imp ?_))
    (List.forall₂_map_right_iff.mpr (hmem.imp ?_))
  · rintro e s ⟨⟨name, hname, _⟩, hkey, _⟩
    refine ⟨name, hname, ?_⟩
    show some s.1 = some name
    rw [← hkey, Value.keyText_of_text? hname]
  · exact fun e s hes => hes.2.2

end HasNames

/-! ## Tagged objects -/

/-- A tagged date is read by its fields. -/
theorem IsTaggedDate.fields {t : DateTime} {v : Value} (h : IsTaggedDate t v) : ∃ es, v = .map es ∧
    (Value.map es).isTagged "Pointer" = false ∧ (Value.map es).isTagged "Date" = true ∧
    Value.field es "iso" = .text t.wireText := by
  cases h with
  | mk _ _ hsame =>
    obtain ⟨es, rfl⟩ := Value.exists_map_of_sameData hsame
    have htype : Value.field es "__type" = .text "Date" :=
      Value.field_of_sameData hsame (by simp) rfl
    refine ⟨es, rfl, ?_, ?_, Value.field_of_sameData hsame (by simp) rfl⟩ <;>
      · rw [Value.isTagged, htype]
        rfl

theorem IsTaggedDate.encode {t : DateTime} {v : Value} (h : IsTaggedDate t v) :
    Encoding.value .storage v = .ok (.datetime t.cut) := by
  obtain ⟨es, rfl, hpointer, hdate, hiso⟩ := h.fields
  cases h with
  | mk hvalid hyear _ => exact Wire.encode_of_fields hvalid hyear hpointer hdate hiso

theorem date_cut (t : DateTime) :
    Wire.date (.datetime t.cut) = .ok (Wire.taggedDate (.text t.wireText)) := by
  rw [Wire.date_of_offset rfl, DateTime.wireText_cut]

/-! ## Values -/

/-- A value, with what the store keeps for it and what is shown for that. -/
structure Returns (v x w : Value) : Prop where
  encoded : Encoding.value .storage v = .ok x
  shown : IsShownAs x w
  same : v.SameData w

theorem returns_list {vs : List Value} (h : ∀ v ∈ vs, ∃ p : Value × Value, Returns v p.1 p.2) :
    ∃ x w, Returns (.list vs) x w := by
  obtain ⟨ps, hps⟩ := exists_forall₂ h
  refine ⟨.list (ps.map (·.1)), .list (ps.map (·.2)), ?_, ?_, ?_⟩
  · have hitems : Encoding.items .storage vs = .ok (ps.map (·.1)) := by
      rw [Encoding.items_eq_mapM]
      exact mapM_eq_ok_iff.mpr (List.forall₂_map_right_iff.mpr (hps.imp fun _ _ hvp => hvp.encoded))
    rw [Encoding.value, hitems]
    rfl
  · refine isShownAs_list ?_
    rw [List.forall₂_map_left_iff, List.forall₂_map_right_iff]
    exact List.forall₂_same.mpr (forall_mem_of_forall₂ hps fun _ _ hvp => hvp.shown)
  · exact .list (List.forall₂_map_right_iff.mpr (hps.imp fun _ _ hvp => hvp.same))

theorem returns_map {es : List (Value × Value)} (hnames : HasNames es)
    (h : ∀ e ∈ es, ∃ p : String × Value × Value, e.1.keyText = p.1 ∧ Returns e.2 p.2.1 p.2.2) :
    ∃ x w, Returns (.map es) x w := by
  obtain ⟨ps, hps⟩ := exists_forall₂ h
  have hkeys : Assoc.keys (ps.map fun p => (p.1, p.2.1)) = es.map fun e => e.1.keyText := by
    rw [Assoc.keys, List.map_map]
    exact (map_eq_map_of_forall₂ hps fun _ _ hep => hep.1).symm
  have hnodup : (Assoc.keys (ps.map fun p => (p.1, p.2.1))).Nodup := hkeys ▸ hnames.distinct
  refine ⟨.object (ps.map fun p => (p.1, p.2.1)), .object (ps.map fun p => (p.1, p.2.2)),
    ?_, ?_, ?_⟩
  · rw [Encoding.value_map (hnames.not_isTagged "Pointer") (hnames.not_isTagged "Date")]
    have hentries : (es.mapM fun e => (Encoding.value .storage e.2).map fun w =>
        (e.1.keyText, w)) = .ok (ps.map fun p => (p.1, p.2.1)) := by
      refine mapM_eq_ok_iff.mpr (List.forall₂_map_right_iff.mpr (hps.imp fun e p hep => ?_))
      rw [hep.2.encoded, hep.1]
      rfl
    rw [hentries]
    exact congrArg (Except.ok ∘ Value.object) (Assoc.ofPairs_of_nodup hnodup)
  · refine isShownAs_object ?_ hnodup ?_
    · intro f hf
      have hmem : f.1 ∈ es.map fun e => e.1.keyText := hkeys ▸ List.mem_map_of_mem hf
      obtain ⟨e, he, hname⟩ := List.mem_map.mp hmem
      exact hname ▸ hnames.column he
    · rw [List.forall₂_map_left_iff, List.forall₂_map_right_iff]
      exact List.forall₂_same.mpr (forall_mem_of_forall₂ hps fun _ _ hep => ⟨rfl, hep.2.shown⟩)
  · exact hnames.sameData (List.forall₂_map_right_iff.mpr (hps.imp fun _ _ hep =>
      ⟨hep.1, hep.2.same⟩))

theorem IsContent.returns {v : Value} (h : IsContent v) : ∃ x w, Returns v x w := by
  induction h with
  | @scalar v hscalar =>
    refine ⟨v, v, hscalar.encode .storage, ?_, .scalar hscalar⟩
    cases hscalar <;> rfl
  | float x => exact ⟨_, _, rfl, rfl, .float x⟩
  | @date t v hdate =>
    have hencoded := hdate.encode
    cases hdate with
    | mk _ _ hsame => exact ⟨_, _, hencoded, date_cut t, hsame⟩
  | list _ ih =>
    refine returns_list fun v hv => ?_
    obtain ⟨x, w, hvalue⟩ := ih v hv
    exact ⟨(x, w), hvalue⟩
  | map hnames _ ih =>
    refine returns_map hnames fun e he => ?_
    obtain ⟨x, w, hvalue⟩ := ih e he
    exact ⟨(e.1.keyText, x, w), rfl, hvalue⟩

/-! ## Fields -/

theorem IsContent.isPointer {v : Value} (h : IsContent v) : v.isPointer = false := by
  cases h with
  | scalar hscalar => exact hscalar.isPointer
  | float x => rfl
  | date hdate =>
    obtain ⟨es, rfl, hpointer, _⟩ := hdate.fields
    exact hpointer
  | list _ => rfl
  | map hnames _ => exact hnames.not_isTagged "Pointer"

theorem IsContent.hasPointerAtTop {v : Value} (h : IsContent v) : hasPointerAtTop v = false := by
  rw [Encoding.hasPointerAtTop, h.isPointer, Bool.false_or]
  cases h with
  | scalar hscalar => cases hscalar <;> rfl
  | float x => rfl
  | date hdate =>
    obtain ⟨es, rfl, _⟩ := hdate.fields
    rfl
  | list hitems => exact Encoding.hasPointerAtTop_list fun x hx => (hitems x hx).isPointer
  | map _ _ => rfl

/-- Content shows the encoder no pointer, and no operator that takes a list. -/
theorem IsContent.operand {v : Value} (h : IsContent v) : holdsPointer v = false ∧
    operand .storage v = Encoding.value .storage v := by
  have hpointer := h.isPointer
  cases h with
  | scalar hscalar => cases hscalar <;> exact ⟨rfl, rfl⟩
  | float x => exact ⟨rfl, rfl⟩
  | date hdate =>
    obtain ⟨es, rfl, _, hdate, _⟩ := hdate.fields
    have htagged : ((Value.map es).isPointer || (Value.map es).isDate) = true := by
      rw [Bool.or_eq_true]
      exact .inr hdate
    refine ⟨?_, by rw [Encoding.operand, if_pos htagged]⟩
    rw [holdsPointer, hpointer, hdate]
    rfl
  | list _ => exact ⟨rfl, rfl⟩
  | @map es hnames hvalues =>
    exact ⟨Encoding.holdsPointer_map hpointer fun e he => (hvalues e he).hasPointerAtTop,
      Encoding.operand_eq_value fun e he =>
        Encoding.not_membership_of_lead (hnames.operator he)⟩

/-- A field with its value, beside its column and what is shown for the column. -/
structure FieldReturns (name : String) (v : Value) (c : String × Value) (w : Value) : Prop where
  encoded : clause .storage name v = .ok c
  column : FieldName.ofStorage c.1 = name
  shown : (stored c.2).outcome c.1 = some (name, .ok w)
  same : v.SameData w

theorem clause_of_operand {name : String} {v x : Value} (hname : name.toList.head? ≠ some '$')
    (hx : operand .storage v = .ok x) :
    clause .storage name v = .ok (clauseName .storage name v, x) := by
  rw [clause, if_neg hname, hx]
  rfl

theorem returns_timestamp {name column : String} {t : DateTime} {v : Value}
    (h : IsTaggedDate t v) (hname : name.toList.head? ≠ some '$')
    (hcolumn : FieldName.toStorage name = column) (hback : FieldName.ofStorage column = name)
    (hkind : Document.column column = .timestamp name) :
    ∃ c w, FieldReturns name v c w := by
  obtain ⟨hpointer, hoperand⟩ := (IsContent.date h).operand
  have hclause := clause_of_operand hname (hoperand.trans h.encode)
  rw [clauseName, hpointer] at hclause
  cases h with
  | mk _ _ hsame =>
    refine ⟨(column, .datetime t.cut), _, hcolumn ▸ hclause, hback, ?_, hsame⟩
    rw [StoredColumn.outcome, columnOutcome, hkind]
    show some (name, Wire.date (.datetime t.cut)) = _
    rw [date_cut]

theorem returns_pointer {name : String} {p : Pointer} {v : Value}
    (hcolumn : name.toList.head? ≠ some '_') (hoperator : name.toList.head? ≠ some '$')
    (hfull : p.IsFull) (hclass : '$' ∉ p.className.toList) (hsame : v.SameData p.toWire) :
    ∃ c w, FieldReturns name v c w := by
  obtain ⟨es, rfl⟩ := Value.exists_map_of_sameData hsame
  have hnodup : (Assoc.keys [("__type", Value.text "Pointer"), ("className", .text p.className),
      ("objectId", .text p.objectId)]).Nodup := by
    simp
  have htype : Value.field es "__type" = .text "Pointer" :=
    Value.field_of_sameData hsame hnodup rfl
  have htag : (Value.map es).isTagged "Pointer" = true := by
    rw [Value.isTagged, htype]
    rfl
  have hvalue := Pointer.encode_of_fields hfull htag
    (Value.field_of_sameData hsame hnodup rfl) (Value.field_of_sameData hsame hnodup rfl) .storage
  have htagged : ((Value.map es).isPointer || (Value.map es).isDate) = true := by
    rw [Bool.or_eq_true]
    exact .inl htag
  have hoperand : operand .storage (.map es) = .ok (.text p.compact) := by
    rw [operand, if_pos htagged, hvalue]
  have hholds : holdsPointer (.map es) = true := by
    rw [holdsPointer, Bool.or_eq_true]
    exact .inl htag
  have hmark : FieldName.pointerColumn name = "_p_" ++ name := by
    rw [← String.toList_inj, FieldName.toList_pointerColumn hcolumn, Selection.toList_mark]
  have hclause := clause_of_operand hoperator hoperand
  rw [clauseName, if_pos hholds, hmark] at hclause
  refine ⟨_, p.toWire, hclause, FieldName.ofStorage_mark (Selection.toList_mark name), ?_, hsame⟩
  rw [StoredColumn.outcome, columnOutcome, Selection.column_mark]
  show some (name, Except.ok (storedPointer (.text p.compact))) = _
  rw [Selection.storedPointer_compact hclass]

theorem returns_content {name : String} {v : Value} (hcolumn : name.toList.head? ≠ some '_')
    (hoperator : name.toList.head? ≠ some '$') (hname : name ∉ FieldName.systemNames)
    (hcontent : IsContent v) : ∃ c w, FieldReturns name v c w := by
  obtain ⟨hholds, hoperand⟩ := hcontent.operand
  obtain ⟨x, w, hvalue, hshown, hsame⟩ := hcontent.returns
  have hclause : clause .storage name v = .ok (name, x) := by
    rw [clause_of_operand hoperator (hoperand.trans hvalue), clauseName, hholds]
    exact congrArg (fun column => Except.ok (column, x)) (FieldName.toStorage_of_not_mem hname)
  refine ⟨(name, x), w, hclause, FieldName.ofStorage_of_lead hcolumn, ?_, hsame⟩
  rw [StoredColumn.outcome, columnOutcome, Selection.column_of_lead hcolumn]
  show some (name, (stored x).inner) = _
  rw [hshown]

theorem IsWireField.returns {name : String} {v : Value} (h : IsWireField name v)
    (hcolumn : name.toList.head? ≠ some '_') (hoperator : name.toList.head? ≠ some '$') :
    ∃ c w, FieldReturns name v c w := by
  cases h with
  | id htext =>
    have hscalar := Value.isScalar_of_isText htext
    refine ⟨("_id", v), v, ?_, rfl, ?_, .scalar hscalar⟩ <;>
      · cases v <;> first | rfl | cases htext
  | created hdate => exact returns_timestamp hdate hoperator rfl rfl rfl
  | updated hdate => exact returns_timestamp hdate hoperator rfl rfl rfl
  | pointer _ hfull hclass hsame => exact returns_pointer hcolumn hoperator hfull hclass hsame
  | content hname hcontent => exact returns_content hcolumn hoperator hname hcontent

/-! ## Objects -/

/-- The fields of an object come back, each from its column. -/
abbrev FieldsReturn (es : List (Value × Value)) (ps : List ((String × Value) × Value)) : Prop :=
  List.Forall₂ (fun e p => FieldReturns e.1.keyText e.2 p.1 p.2) es ps

namespace FieldsReturn

variable {es : List (Value × Value)} {ps : List ((String × Value) × Value)}

theorem keys (h : FieldsReturn es ps) :
    (ps.map fun p => FieldName.ofStorage p.1.1) = es.map fun e => e.1.keyText :=
  (map_eq_map_of_forall₂ h fun _ _ hep => hep.column.symm).symm

theorem encoded (h : FieldsReturn es ps) (hnames : HasNames es) :
    matchBody .storage (.map es) = .ok (.object (ps.map (·.1))) := by
  have hentries : Encoding.matchEntries .storage es = .ok (ps.map (·.1)) := by
    rw [Encoding.matchEntries_eq_mapM]
    have hmem := (List.forall₂_and_left es ps).mpr
      ⟨fun e he => Encoding.not_logical_of_lead (hnames.operator he), h⟩
    refine mapM_eq_ok_iff.mpr (List.forall₂_map_right_iff.mpr (hmem.imp fun e p hep => ?_))
    rw [hep.1]
    exact hep.2.encoded
  -- columns that are decoded to different names differ
  have hdistinct : (Assoc.keys (ps.map (·.1))).Nodup := by
    refine .of_map FieldName.ofStorage ?_
    rw [Assoc.keys, List.map_map, List.map_map]
    exact h.keys ▸ hnames.distinct
  rw [matchBody, hentries]
  exact congrArg (Except.ok ∘ Value.object) (Assoc.ofPairs_of_nodup hdistinct)

theorem shown (h : FieldsReturn es ps) (hnames : HasNames es) :
    toWire (.object (ps.map (·.1))) .null =
      .ok (.object (ps.map fun p => (FieldName.ofStorage p.1.1, p.2))) := by
  refine toWire_of_outcomes ?_ ?_
  · rw [Assoc.keys, List.map_map]
    exact h.keys ▸ hnames.distinct
  · rw [List.forall₂_map_left_iff, List.forall₂_map_right_iff]
    refine List.forall₂_same.mpr (forall_mem_of_forall₂ h fun e p hep => ?_)
    rw [hep.shown, hep.column]

theorem sameData (h : FieldsReturn es ps) (hnames : HasNames es) :
    SameData (.map es) (.object (ps.map fun p => (FieldName.ofStorage p.1.1, p.2))) :=
  hnames.sameData (List.forall₂_map_right_iff.mpr
    (h.imp fun _ _ hep => ⟨hep.column.symm, hep.same⟩))

end FieldsReturn

/-- A wire object comes back from the store: it is encoded, its document is shown, and what is
    shown has the same data. It is equal to the object where not a number stands nowhere in it. -/
theorem toWire_encoded {es : List (Value × Value)} (hnames : HasNames es)
    (hfields : ∀ e ∈ es, IsWireField e.1.keyText e.2) :
    ∃ doc w, matchBody .storage (.map es) = .ok doc ∧ toWire doc .null = .ok w ∧
      SameData (.map es) w ∧ ((Value.map es).isReflexive = true → (Value.map es == w) = true) := by
  obtain ⟨ps, hps⟩ : ∃ ps, FieldsReturn es ps := by
    refine exists_forall₂ fun e he => ?_
    obtain ⟨c, w, hreturns⟩ :=
      (hfields e he).returns (hnames.column he) (hnames.operator he)
    exact ⟨(c, w), hreturns⟩
  have hsame := hps.sameData hnames
  exact ⟨_, _, hps.encoded hnames, hps.shown hnames, hsame, Value.equal_of_sameData _ _ hsame⟩

/-- A song with a pointer whose keys are in another order and written as reserved keys, and with
    dates in a list and in a mapping. -/
theorem toWire_encoded_song :
    let t : DateTime := ⟨⟨2024, 2, 29⟩, 12, 0, 0, 1000, some 0⟩
    let date : Value := Wire.taggedDate (.text t.wireText)
    let es : List (Value × Value) := [(.text "objectId", .text "s1"), (.text "createdAt", date),
      (.text "album", .map [(.tagKey .objectId, .text "a1"), (.tagKey .type, .text "Pointer"),
        (.text "className", .text "Album")]),
      (.text "plays", .list [.int 3, .map [(.tagKey .iso, date), (.text "by", .null)], date])]
    HasNames es ∧ (∀ e ∈ es, IsWireField e.1.keyText e.2) ∧
      ∃ doc w, matchBody .storage (.map es) = .ok doc ∧ toWire doc .null = .ok w ∧
        (Value.map es == w) = true := by
  intro t date es
  have hdate : IsTaggedDate t date := by
    refine ⟨by decide, by decide, .map (.refl _) ?_ ?_⟩
    · exact .cons ⟨"__type", rfl, rfl⟩ (.cons ⟨"iso", rfl, rfl⟩ .nil)
    · exact .cons (.scalar (.text _)) (.cons (.scalar (.text _)) .nil)
  have hpointer : SameData (.map [(.tagKey .objectId, .text "a1"), (.tagKey .type, .text "Pointer"),
      (.text "className", .text "Album")]) (Pointer.mk "Album" "a1").toWire := by
    refine .map ((List.Perm.swap _ _ _).trans (.cons _ (.swap _ _ _))) ?_ ?_
    · exact .cons ⟨"objectId", rfl, rfl⟩ (.cons ⟨"__type", rfl, rfl⟩
        (.cons ⟨"className", rfl, rfl⟩ .nil))
    · exact .cons (.scalar (.text _)) (.cons (.scalar (.text _)) (.cons (.scalar (.text _)) .nil))
  have hinner : HasNames [(.tagKey .iso, date), (.text "by", .null)] :=
    ⟨by simp [Value.text?, TagKey.text], by decide⟩
  have hnames : HasNames es := ⟨by simp [es, Value.text?], by decide⟩
  have hplays : IsContent (.list [.int 3, .map [(.tagKey .iso, date), (.text "by", .null)],
      date]) := by
    refine .list ?_
    simp only [List.forall_mem_cons, List.not_mem_nil, false_implies, implies_true, and_true]
    refine ⟨.scalar (.int 3), .map hinner ?_, .date hdate⟩
    simp only [List.forall_mem_cons, List.not_mem_nil, false_implies, implies_true, and_true]
    exact ⟨.date hdate, .scalar .null⟩
  have hfields : ∀ e ∈ es, IsWireField e.1.keyText e.2 := by
    simp only [es, List.forall_mem_cons, List.not_mem_nil, false_implies, implies_true, and_true]
    exact ⟨.id rfl, .created hdate,
      .pointer (by decide) ⟨by decide, by decide⟩ (by decide) hpointer,
      .content (by decide) hplays⟩
  obtain ⟨doc, w, hdoc, hw, _, hequal⟩ := toWire_encoded hnames hfields
  exact ⟨hnames, hfields, doc, w, hdoc, hw, hequal rfl⟩

end DocQuery.Document
