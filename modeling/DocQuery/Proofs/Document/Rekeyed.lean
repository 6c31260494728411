-- SUMMARY: Documents are shown alike however reserved keys are spelled, and so is all that is converted.
import DocQuery.Proofs.Document.Kept
import DocQuery.Proofs.Encoding.Rekeyed

/-!
# Respelled keys in documents

Columns are told by the texts of keys, in a document and in the mappings inside of it. So two
documents that differ in the spelling of keys only are shown alike. With what is known of dates,
pointers, wire values and pipelines, nothing that is converted depends on how keys are spelled.
-/

namespace DocQuery

open Value (Rekeyed RekeyedEntries RekeyedFields ConvertAlike SameResult)

variable {v w : Value}

namespace Document

/-! ## Columns -/

theorem isGranted_rekeyed {ps qs : List (Value × Value)} (h : RekeyedEntries ps qs)
    (short long : String) : isGranted ps short long = isGranted qs short long := by
  have hshort := Rekeyed.field h short
  have hlong := Rekeyed.field h long
  simp only [isGranted]
  generalize Value.field ps short = x at hshort ⊢
  generalize Value.field qs short = x' at hshort ⊢
  generalize Value.field ps long = y at hlong ⊢
  generalize Value.field qs long = y' at hlong ⊢
  cases hshort <;> cases hlong <;> rfl

theorem permissions_rekeyed (h : Rekeyed v w) : Rekeyed (permissions v) (permissions w) := by
  cases h with
  | same => exact .same _
  | list h => exact .list h
  | tuple h => exact .tuple h
  | @map es fs hkeys hvalues =>
    have hsame : permissions (.map es) = permissions (.map fs) := by
      refine congrArg (fun granted => Value.object (Assoc.ofPairs granted)) ?_
      refine filterMap_eq_filterMap_of_forall₂ (Rekeyed.map hkeys hvalues).entries ?_
      rintro ⟨entity, perms⟩ ⟨entity', perms'⟩ ⟨hkey, hvalue⟩
      have hname : entity.keyText = entity'.keyText := hkey.keyText
      cases hvalue with
      | same => simp only [hname]
      | list _ | tuple _ => rfl
      | map pkeys pvalues =>
        simp only [hname, isGranted_rekeyed (Rekeyed.map pkeys pvalues).entries]
    rw [hsame]
    exact .same _

theorem timestamp_rekeyed (h : Rekeyed v w) : ConvertAlike (timestamp v) (timestamp w) := by
  cases h with
  | same => exact .refl _
  | list h => exact .ok (.list h)
  | tuple h => exact .ok (.tuple h)
  | map hkeys hvalues => exact .ok (.map hkeys hvalues)

theorem storedPointer_rekeyed (h : Rekeyed v w) :
    Rekeyed (storedPointer v) (storedPointer w) := by
  cases h with
  | same => exact .same _
  | list h => exact .list h
  | tuple h => exact .tuple h
  | map hkeys hvalues => exact .map hkeys hvalues

theorem identifier_rekeyed (h : Rekeyed v w) : Rekeyed (identifier v) (identifier w) := by
  cases h with
  | same => exact .same _
  | list h => exact .list h
  | tuple h => exact .tuple h
  | map hkeys hvalues => exact .map hkeys hvalues

/-- Stored columns whose values are the same but for the spelling of keys, with outcomes that
    are, too. -/
structure RekeyedColumn (c d : StoredColumn) : Prop where
  value : Rekeyed c.value d.value
  embedded : ConvertAlike c.embedded d.embedded
  inner : ConvertAlike c.inner d.inner

theorem RekeyedColumn.outcome {c d : StoredColumn} (h : RekeyedColumn c d) (name : String) :
    Option.Rel (UnderOneName ConvertAlike) (c.outcome name) (d.outcome name) := by
  rw [StoredColumn.outcome, StoredColumn.outcome, columnOutcome, columnOutcome]
  cases column name with
  | id => exact .some ⟨rfl, .ok (identifier_rekeyed h.value)⟩
  | timestamp wire => exact .some ⟨rfl, timestamp_rekeyed h.value⟩
  | pointer wire => exact .some ⟨rfl, .ok (storedPointer_rekeyed h.value)⟩
  | permissions => exact .some ⟨rfl, .ok (permissions_rekeyed h.value)⟩
  | included wire => exact .some ⟨rfl, h.embedded⟩
  | internal => exact .none
  | plain wire => exact .some ⟨rfl, h.inner⟩

theorem collect_rekeyed {os ps : List (String × Outcome)}
    (h : List.Forall₂ (UnderOneName ConvertAlike) os ps) :
    SucceedAlike RekeyedFields (collect os) (collect ps) := by
  induction h with
  | nil => exact .ok .nil
  | @cons o p os ps hhead _ ih =>
    rw [collect, collect, hhead.1]
    exact hhead.2.bind fun _ _ hvalue => ih.bind fun _ _ hrest => .ok (.cons ⟨rfl, hvalue⟩ hrest)

/-! ## Documents -/

section Columns

variable {cs ds : List (String × StoredColumn)}

theorem ofColumns_rekeyed (h : List.Forall₂ (UnderOneName RekeyedColumn) cs ds) :
    SucceedAlike RekeyedFields (ofColumns cs) (ofColumns ds) := by
  have houtcomes : List.Forall₂ (UnderOneName ConvertAlike)
      ((cs.map fun c => c.2.outcome c.1).filterMap id)
      ((ds.map fun d => d.2.outcome d.1).filterMap id) := by
    rw [List.filterMap_map, List.filterMap_map]
    refine List.rel_filterMap (fun c d hcd => ?_) h
    show Option.Rel _ (c.2.outcome c.1) (d.2.outcome d.1)
    rw [hcd.1]
    exact hcd.2.outcome d.1
  exact (collect_rekeyed houtcomes).map fun _ _ => Assoc.ofPairs_forall₂

theorem innerMap_rekeyed (h : List.Forall₂ (UnderOneName RekeyedColumn) cs ds) :
    ConvertAlike (innerMap cs) (innerMap ds) := by
  have hjoined := Assoc.ofPairs_forall₂ h
  have hfound : ∀ name, (Assoc.find? name (Assoc.ofPairs cs)).isSome =
      (Assoc.find? name (Assoc.ofPairs ds)).isSome := by
    intro name
    rw [Bool.eq_iff_iff, Assoc.find?_isSome_iff, Assoc.find?_isSome_iff,
      Assoc.keys_of_forall₂ hjoined fun _ _ hcd => hcd.1]
  simp only [innerMap, hfound]
  split_ifs
  · exact .ok (.object (List.rel_map (fun c d hcd => ⟨hcd.1, hcd.2.value⟩) hjoined))
  · exact (ofColumns_rekeyed hjoined).map fun _ _ => .object
  · refine (collect_rekeyed ?_).map fun _ _ => .object
    exact List.rel_map (fun c d hcd => ⟨hcd.1, hcd.2.inner⟩) hjoined

end Columns

theorem storedColumns_eq_map (es : List (Value × Value)) :
    storedColumns es = es.map fun e => (e.1.keyText, stored e.2) := by
  induction es with
  | nil => rfl
  | cons e es ih => rw [storedColumns, List.map_cons, ih]

theorem storedColumns_rekeyed {es fs : List (Value × Value)}
    (h : List.Forall₂ (fun e f => Value.SameKey e.1 f.1 ∧ RekeyedColumn (stored e.2) (stored f.2))
      es fs) : List.Forall₂ (UnderOneName RekeyedColumn) (storedColumns es) (storedColumns fs) := by
  rw [storedColumns_eq_map, storedColumns_eq_map]
  exact List.rel_map (fun e f hef => ⟨hef.1.keyText, hef.2⟩) h

theorem stored_rekeyed (h : Rekeyed v w) : RekeyedColumn (stored v) (stored w) := by
  induction h using Rekeyed.induct with
  | same v => exact ⟨.same _, .refl _, .refl _⟩
  | list hlist ih =>
    refine ⟨hlist, .ok hlist, ?_⟩
    rw [stored, stored, inners_eq_mapM, inners_eq_mapM]
    exact .list (ih.imp fun _ _ hxy => (hxy.2 hxy.1).inner)
  | tuple htuple ih =>
    refine ⟨htuple, .ok htuple, ?_⟩
    rw [stored, stored, inners_eq_mapM, inners_eq_mapM]
    exact .list (ih.imp fun _ _ hxy => (hxy.2 hxy.1).inner)
  | map hmap ih =>
    have hcolumns := storedColumns_rekeyed (ih.imp fun _ _ hef => ⟨hef.1, hef.2.2 hef.2.1⟩)
    exact ⟨hmap, (ofColumns_rekeyed hcolumns).map fun _ _ => .object, innerMap_rekeyed hcolumns⟩

theorem toWire_rekeyed (h : Rekeyed v w) (className : Value) :
    ConvertAlike (toWire v className) (toWire w className) := by
  cases h with
  | same => exact .refl _
  | list _ | tuple _ => exact .refl _
  | map hkeys hvalues =>
    have hcolumns := storedColumns_rekeyed ((Rekeyed.map hkeys hvalues).entries.imp
      fun _ _ hef => ⟨hef.1, stored_rekeyed hef.2⟩)
    refine (ofColumns_rekeyed hcolumns).bind fun fields fields' hfields => .ok (.object ?_)
    split_ifs
    · exact Assoc.assign_forall₂ hfields "className" (.same className)
    · exact hfields

end Document

/-! ## All conversions -/

/-- Of two values that are the same but for the spelling of the keys of their mappings, at any
    depth, both are read as the same date or neither is read as one, and likewise for pointers.
    Their wire forms, their encodings as match bodies and as stage documents for either target,
    and what is shown of them as documents all succeed or fail together, with equal results. -/
theorem respelled_keys_convert_alike (h : Rekeyed v w) :
    SucceedAlike Eq (DateTime.ofValue v) (DateTime.ofValue w) ∧
      SucceedAlike Eq (Pointer.ofValue? v) (Pointer.ofValue? w) ∧
      SucceedAlike SameResult (Wire.ofValue v) (Wire.ofValue w) ∧
      (∀ target,
        SucceedAlike SameResult (Encoding.matchBody target v) (Encoding.matchBody target w) ∧
        SucceedAlike SameResult (Encoding.stage target v) (Encoding.stage target w)) ∧
      ∀ className,
        SucceedAlike SameResult (Document.toWire v className) (Document.toWire w className) := by
  refine ⟨DateTime.ofValue_rekeyed h, Pointer.ofValue?_rekeyed h,
    (Wire.ofValue_rekeyed h).sameResult, fun target => ⟨?_, ?_⟩, fun className => ?_⟩
  · exact (Encoding.matchBody_rekeyed h).1.sameResult
  · exact (Encoding.stage_rekeyed h).sameResult
  · exact (Document.toWire_rekeyed h className).sameResult

/-- A tagged pointer in an alternative of a match body, with reserved keys and with their
    texts. -/
theorem respelled_keys_convert_alike_pointer :
    let pointer (type className objectId : Value) : Value :=
      .map [(type, .text "Pointer"), (className, .text "Artist"), (objectId, .text "a1")]
    let body (artist : Value) : Value := .object [("$or", .list [.object [("artist", artist)]])]
    let reserved := pointer (.tagKey .type) (.tagKey .className) (.tagKey .objectId)
    let plain := pointer (.text "__type") (.text "className") (.text "objectId")
    Rekeyed (body reserved) (body plain) ∧
      Encoding.matchBody .storage (body reserved) =
        .ok (.object [("$or", .list [.object [("_p_artist", .text "Artist$a1")]])]) ∧
      SucceedAlike SameResult (Encoding.matchBody .storage (body reserved))
        (Encoding.matchBody .storage (body plain)) := by
  intro pointer body reserved plain
  have hpointer : Rekeyed reserved plain :=
    .ofEntries (.cons ⟨.inr ⟨_, rfl, rfl⟩, .same _⟩ (.cons ⟨.inr ⟨_, rfl, rfl⟩, .same _⟩
      (.cons ⟨.inr ⟨_, rfl, rfl⟩, .same _⟩ .nil)))
  have hclause : RekeyedFields [("artist", reserved)] [("artist", plain)] :=
    .cons ⟨rfl, hpointer⟩ .nil
  have hbody : Rekeyed (body reserved) (body plain) :=
    .object (.cons ⟨rfl, .list (.cons (.object hclause) .nil)⟩ .nil)
  exact ⟨hbody, rfl, ((respelled_keys_convert_alike hbody).2.2.2.1 .storage).1⟩

end DocQuery
