-- SUMMARY: Tagged objects: how those of pointers and dates are recognised, compared and encoded.
import DocQuery.Encoding.Match
import DocQuery.Proofs.Assoc
import DocQuery.Proofs.Except
import DocQuery.Proofs.Wire.Date

/-!
# Tagged objects

A pointer and its tagged object stand for each other, and so do a pointer and its compact
text while its class has no dollar sign. Tagged objects of different types are never
equal, and none equals a value that is no mapping.
-/

namespace DocQuery

namespace Value

/-! ## Mappings and other values -/

theorem map_beq_of_not_isMap {es : List (Value × Value)} {v : Value} (hv : v.isMap = false) :
    (Value.map es == v) = false := by
  show Value.equal (.map es) v = false
  cases v with
  | map fs => cases hv
  | _ => rfl

theorem beq_map_of_not_isMap {es : List (Value × Value)} {v : Value} (hv : v.isMap = false) :
    (v == Value.map es) = false := by
  show Value.equal v (.map es) = false
  cases v with
  | map fs => cases hv
  | _ => rfl

theorem map_beq_of_length_ne {es fs : List (Value × Value)} (h : es.length ≠ fs.length) :
    (Value.map es == Value.map fs) = false := by
  show Value.equal (.map es) (.map fs) = false
  rw [Value.equal, beq_eq_false_iff_ne.mpr h, Bool.false_and]

/-! ## Types of mappings -/

theorem beq_text_iff {v : Value} {s : String} : (v == .text s) = true ↔ v.text? = some s := by
  show v.equal (.text s) = true ↔ _
  cases v <;> simp [equal, equalPlain, number?, text?]

theorem keyText_of_text? {k : Value} {s : String} (h : k.text? = some s) : k.keyText = s := by
  cases k with
  | text t => exact Option.some.inj h
  | tagKey k => exact Option.some.inj h
  | _ => cases h

theorem textEntries_object (fs : List (String × Value)) :
    textEntries (fs.map fun (k, v) => (Value.text k, v)) = fs := by
  rw [textEntries, List.map_map]
  exact List.map_id fs

theorem fields_object (fs : List (String × Value)) :
    fields (fs.map fun (k, v) => (Value.text k, v)) = Assoc.ofPairs fs := by
  rw [fields, textEntries_object]

theorem isTagged_map {es : List (Value × Value)} {type : String} :
    (Value.map es).isTagged type = true ↔
      ∃ v, Assoc.find? "__type" (fields es) = some v ∧ v.text? = some type := by
  rw [isTagged, beq_text_iff, field]
  cases Assoc.find? "__type" (fields es) with
  | none => simp [text?]
  | some v => simp

/-- A mapping without a type is no tagged object. -/
theorem not_isTagged_of_keys {es : List (Value × Value)} (h : ∀ e ∈ es, e.1.keyText ≠ "__type")
    (type : String) : (Value.map es).isTagged type = false := by
  rw [← Bool.not_eq_true, isTagged_map]
  rintro ⟨v, hv, _⟩
  have hkey : "__type" ∈ Assoc.keys (textEntries es) :=
    Assoc.mem_keys_ofPairs.mp (Assoc.find?_isSome_iff.mp (Option.isSome_of_eq_some hv))
  rw [textEntries, Assoc.keys, List.map_map] at hkey
  obtain ⟨e, he, hname⟩ := List.mem_map.mp hkey
  exact h e he hname

theorem object_injective : Value.object.Injective := by
  intro fs fs' h
  refine List.map_injective_iff.mpr ?_ (Value.map.inj h)
  rintro ⟨k, v⟩ ⟨k', v'⟩ ⟨⟩
  rfl

/-! ## Plain values -/

/-- Null, a truth value, a whole number or a text. -/
inductive IsScalar : Value → Prop
  | null : IsScalar .null
  | bool (b : Bool) : IsScalar (.bool b)
  | int (n : Int) : IsScalar (.int n)
  | text (s : String) : IsScalar (.text s)
  | brokenText (t : Text.BrokenText) : IsScalar (.brokenText t)
  | tagKey (k : TagKey) : IsScalar (.tagKey k)

theorem isScalar_of_isText {v : Value} (hv : v.isText = true) : v.IsScalar := by
  cases v with
  | text s => exact .text s
  | brokenText t => exact .brokenText t
  | tagKey k => exact .tagKey k
  | _ => cases hv

namespace IsScalar

variable {v : Value}

theorem isMap (hv : v.IsScalar) : v.isMap = false := by
  cases hv <;> rfl

theorem isPointer (hv : v.IsScalar) : v.isPointer = false := by
  cases hv <;> rfl

theorem datetime_beq (hv : v.IsScalar) (t : DateTime) : (Value.datetime t == v) = false := by
  cases hv <;> rfl

theorem beq_datetime (hv : v.IsScalar) (t : DateTime) : (v == Value.datetime t) = false := by
  cases hv <;> rfl

/-- A scalar is encoded as it is. -/
theorem encode (hv : v.IsScalar) (target : Target) : Encoding.value target v = .ok v := by
  cases hv <;> rfl

end IsScalar

end Value

/-! ## Pointers -/

namespace Pointer

/-- Neither the class nor the id is empty. -/
structure IsFull (p : Pointer) : Prop where
  className : p.className ≠ ""
  objectId : p.objectId ≠ ""

theorem toList_compact (p : Pointer) :
    p.compact.toList = p.className.toList ++ '$' :: p.objectId.toList := by
  simp [compact]

theorem takeWhile_compact {p : Pointer} (hp : '$' ∉ p.className.toList) :
    p.compact.toList.takeWhile (· != '$') = p.className.toList := by
  have hclass : ∀ c ∈ p.className.toList, (c != '$') = true := by
    intro c hc
    rw [bne_iff_ne]
    rintro rfl
    exact hp hc
  rw [toList_compact, List.takeWhile_append_of_pos hclass]
  simp

theorem dropWhile_compact {p : Pointer} (hp : '$' ∉ p.className.toList) :
    p.compact.toList.dropWhile (· != '$') = '$' :: p.objectId.toList := by
  have hclass : ∀ c ∈ p.className.toList, (c != '$') = true := by
    intro c hc
    rw [bne_iff_ne]
    rintro rfl
    exact hp hc
  rw [toList_compact, List.dropWhile_append_of_pos hclass]
  simp

/-- A pointer whose class has no dollar sign is known by its compact text. -/
theorem compact_inj {p q : Pointer} (hp : '$' ∉ p.className.toList)
    (hq : '$' ∉ q.className.toList) (h : p.compact = q.compact) : p = q := by
  have hclass := takeWhile_compact hp
  have hid := dropWhile_compact hp
  rw [h, takeWhile_compact hq] at hclass
  rw [h, dropWhile_compact hq, List.cons.injEq] at hid
  obtain ⟨className, objectId⟩ := p
  obtain ⟨className', objectId'⟩ := q
  simp only [String.toList_inj] at hclass hid
  rw [hclass, hid.2]

theorem toWire_beq {p q : Pointer} : (p.toWire == q.toWire) = true ↔ p = q := by
  obtain ⟨className, objectId⟩ := p
  obtain ⟨className', objectId'⟩ := q
  show Value.equal _ _ = true ↔ _
  simp [toWire, Value.object, Value.equal, Value.entriesIn, Value.equalPlain, Value.number?,
    Value.text?]

theorem fullText_text (name : String) {s : String} (hs : s ≠ "") :
    Record.fullText name (.text s) = .ok s := by
  have hempty : s.isEmpty = false := by
    simpa using hs
  simp [Record.fullText, Record.text, Record.textOf, Value.text?, hempty]

section Fields

variable {es : List (Value × Value)} {p : Pointer}

/-- A tagged object with the fields of a pointer is read as the pointer. -/
theorem ofWire_of_fields (hp : p.IsFull) (htag : (Value.map es).isTagged "Pointer" = true)
    (hclass : Value.field es "className" = .text p.className)
    (hid : Value.field es "objectId" = .text p.objectId) : ofWire (.map es) = .ok p := by
  have hclassGiven : (Value.text p.className).isGiven = true := by
    simpa [Value.isGiven] using hp.className
  have hidGiven : (Value.text p.objectId).isGiven = true := by
    simpa [Value.isGiven] using hp.objectId
  have hargs : ofArgs [("class_name", .text p.className), ("object_id", .text p.objectId)] =
      .ok p := by
    have hclassField : Record.field [("class_name", .text p.className),
        ("object_id", .text p.objectId)] "class_name" none Record.fullText = .ok p.className :=
      fullText_text "class_name" hp.className
    have hidField : Record.field [("class_name", .text p.className),
        ("object_id", .text p.objectId)] "object_id" none Record.fullText = .ok p.objectId :=
      fullText_text "object_id" hp.objectId
    simp only [ofArgs, hclassField, hidField]
    rfl
  simp only [ofWire, htag, hclass, hid, hclassGiven, hidGiven, Bool.and_self, if_true]
  exact hargs

/-- It is encoded as the compact text of the pointer, for both targets. -/
theorem encode_of_fields (hp : p.IsFull) (htag : (Value.map es).isTagged "Pointer" = true)
    (hclass : Value.field es "className" = .text p.className)
    (hid : Value.field es "objectId" = .text p.objectId) (target : Target) :
    Encoding.value target (.map es) = .ok (.text p.compact) := by
  have hpointer : (Value.map es).isPointer = true := htag
  have hread : ofValue? (.map es) = .ok (some p) := by
    simp only [ofValue?, htag, if_true, ofWire_of_fields hp htag hclass hid]
    rfl
  rw [Encoding.value, if_pos hpointer, Encoding.pointer, hread]
  rfl

end Fields

/-- A pointer is encoded as its compact text, for both targets. -/
theorem encode_toWire {p : Pointer} (hp : p.IsFull) (target : Target) :
    Encoding.value target p.toWire = .ok (.text p.compact) :=
  encode_of_fields hp rfl rfl rfl target

end Pointer

/-! ## Dates -/

namespace Wire

theorem date_of_offset {t : DateTime} (h : t.offset = some 0) :
    date (.datetime t) = .ok (taggedDate (.text t.wireText)) := by
  have hutc : t.toUtc = .ok t := DateTime.toUtc_of_offset h
  simp only [date, isoText, DateTime.ofValue, hutc]
  rfl

theorem taggedDate_beq {s t : String} :
    (taggedDate (.text s) == taggedDate (.text t)) = true ↔ s = t := by
  show Value.equal _ _ = true ↔ _
  simp [taggedDate, Value.object, Value.equal, Value.entriesIn, Value.equalPlain, Value.number?,
    Value.text?]

section Fields

variable {es : List (Value × Value)}

/-- A tagged object with the text of a date is read as the text. -/
theorem ofValue_of_fields {s : String} (htag : (Value.map es).isTagged "Date" = true)
    (hiso : Value.field es "iso" = .text s) :
    DateTime.ofValue (.map es) = DateTime.ofIso (.text s) s.toList := by
  simp only [DateTime.ofValue, hiso, htag, Value.points?, Text.CodePoint.ofText, List.map_map]
  congr 1
  exact List.map_id s.toList

theorem ofValue_taggedDate (s : String) :
    DateTime.ofValue (taggedDate (.text s)) = DateTime.ofIso (.text s) s.toList :=
  ofValue_of_fields rfl rfl

/-- A tagged object with the wire form of a reading is encoded for the store as the reading, cut
    to its millisecond. -/
theorem encode_of_fields {t : DateTime} (ht : t.isValid = true) (hyear : 1000 ≤ t.date.year)
    (hpointer : (Value.map es).isTagged "Pointer" = false)
    (htag : (Value.map es).isTagged "Date" = true)
    (hiso : Value.field es "iso" = .text t.wireText) :
    Encoding.value .storage (.map es) = .ok (.datetime t.cut) := by
  have hnot : (Value.map es).isPointer = false := hpointer
  have hdate : (Value.map es).isDate = true := htag
  rw [Encoding.value, if_neg (Bool.eq_false_iff.mp hnot), if_pos hdate, Encoding.date,
    ofValue_of_fields htag hiso, DateTime.ofIso_wireText ht hyear]
  rfl

end Fields

/-- The tagged object of a reading is encoded for the store as the reading, cut to its
    millisecond. -/
theorem encode_taggedDate {t : DateTime} (ht : t.isValid = true) (hyear : 1000 ≤ t.date.year) :
    Encoding.value .storage (taggedDate (.text t.wireText)) = .ok (.datetime t.cut) :=
  encode_of_fields ht hyear rfl rfl rfl

end Wire

/-! ## Pointers in operands -/

namespace Encoding

theorem hasPointerAtTop_list {xs : List Value} (h : ∀ x ∈ xs, x.isPointer = false) :
    hasPointerAtTop (.list xs) = false := by
  show xs.any Value.isPointer = false
  rw [List.any_eq_false]
  intro x hx
  rw [h x hx]
  exact Bool.false_ne_true

theorem holdsPointer_map {es : List (Value × Value)} (hpointer : (Value.map es).isPointer = false)
    (h : ∀ e ∈ es, hasPointerAtTop e.2 = false) : holdsPointer (.map es) = false := by
  rw [holdsPointer, hpointer, Bool.false_or, Bool.and_eq_false_iff]
  refine .inr ?_
  show es.any _ = false
  rw [List.any_eq_false]
  intro e he
  show ¬hasPointerAtTop e.2 = true
  rw [h e he]
  exact Bool.false_ne_true

/-- Items that can be encoded have a class in common exactly when a pointer is among them. -/
theorem exists_commonClass? {target : Target} {xs : List Value}
    (h : ∀ x ∈ xs, ∃ y, value target x = .ok y) :
    ∃ common, commonClass? xs = .ok common ∧ common.isSome = xs.any Value.isPointer := by
  unfold commonClass?
  cases hfound : xs.find? Value.isPointer with
  | none =>
    refine ⟨none, rfl, ?_⟩
    rw [eq_comm, Option.isSome_none, List.any_eq_false]
    exact List.find?_eq_none.mp hfound
  | some x =>
    have hpointer := List.find?_some hfound
    have hany : xs.any Value.isPointer = true :=
      List.any_eq_true.mpr ⟨x, List.mem_of_find?_eq_some hfound, hpointer⟩
    obtain ⟨y, hy⟩ := h x (List.mem_of_find?_eq_some hfound)
    obtain ⟨p, hp⟩ : ∃ p, Pointer.ofValue? x = .ok (some p) := by
      cases x with
      | pointer p => exact ⟨p, rfl⟩
      | map es =>
        rw [value, if_pos hpointer] at hy
        obtain ⟨p?, hp, hy⟩ := exists_of_bind_eq_ok hy
        cases p? with
        | none => cases hy
        | some p => exact ⟨p, hp⟩
      | _ => cases hpointer
    refine ⟨some p.className, ?_, hany.symm⟩
    show (Pointer.ofValue? x).map _ = _
    rw [hp]
    rfl

end Encoding

end DocQuery
