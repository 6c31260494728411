-- SUMMARY: Dates, pointers and wire values are read alike however reserved keys are spelled.
import DocQuery.Proofs.Value.Rekeyed
import DocQuery.Proofs.Wire.Data

/-!
# Respelled keys on the wire

A tagged object is told by the texts of its keys. So a date or a pointer is read alike from
objects that differ in the spelling of keys only, and the wire forms of two such values are the
same but for that, too. Errors may show the value that was given, so they may differ.
-/

namespace DocQuery

open Value (Rekeyed ConvertAlike)

variable {v w : Value}

/-! ## Dates -/

namespace DateTime

theorem ofIso_given (given given' : Value) (cs : List Char) :
    SucceedAlike Eq (ofIso given cs) (ofIso given' cs) := by
  simp only [ofIso]
  split
  · exact .refl (fun _ => rfl) _
  · exact .error _ _

theorem ofValue_rekeyed (h : Rekeyed v w) : SucceedAlike Eq (ofValue v) (ofValue w) := by
  cases h with
  | same => exact .refl (fun _ => rfl) _
  | list _ | tuple _ => exact .error _ _
  | map hkeys hvalues =>
    have hmap := Rekeyed.map hkeys hvalues
    simp only [ofValue, hmap.isTagged, (Rekeyed.field hmap.entries "iso").points?]
    split
    · exact ofIso_given _ _ _
    · exact .error _ _

end DateTime

/-! ## Pointers -/

theorem Record.fullText_rekeyed (h : Rekeyed v w) (name : String) :
    Record.fullText name v = Record.fullText name w := by
  have htext : Record.textOf v = Record.textOf w := by
    cases h <;> rfl
  rw [Record.fullText, Record.fullText, Record.text, Record.text, htext]

namespace Pointer

theorem ofArgs_rekeyed {className className' objectId objectId' : Value}
    (hclass : Rekeyed className className') (hid : Rekeyed objectId objectId') :
    ofArgs [("class_name", className), ("object_id", objectId)] =
      ofArgs [("class_name", className'), ("object_id", objectId')] := by
  have hclassField : Record.field [("class_name", className), ("object_id", objectId)]
      "class_name" none Record.fullText = Record.field [("class_name", className'),
      ("object_id", objectId')] "class_name" none Record.fullText :=
    Record.fullText_rekeyed hclass "class_name"
  have hidField : Record.field [("class_name", className), ("object_id", objectId)]
      "object_id" none Record.fullText = Record.field [("class_name", className'),
      ("object_id", objectId')] "object_id" none Record.fullText :=
    Record.fullText_rekeyed hid "object_id"
  simp only [ofArgs, hclassField, hidField]
  rfl

theorem ofWire_rekeyed (h : Rekeyed v w) : SucceedAlike Eq (ofWire v) (ofWire w) := by
  cases h with
  | same => exact .refl (fun _ => rfl) _
  | list _ | tuple _ => exact .error _ _
  | map hkeys hvalues =>
    have hmap := Rekeyed.map hkeys hvalues
    have hclass := Rekeyed.field hmap.entries "className"
    have hid := Rekeyed.field hmap.entries "objectId"
    simp only [ofWire, hmap.isTagged, hclass.isGiven, hid.isGiven, ofArgs_rekeyed hclass hid]
    split
    · exact .refl (fun _ => rfl) _
    · exact .error _ _

theorem ofValue?_rekeyed (h : Rekeyed v w) : SucceedAlike Eq (ofValue? v) (ofValue? w) := by
  cases h with
  | same => exact .refl (fun _ => rfl) _
  | list _ | tuple _ => exact .refl (fun _ => rfl) _
  | map hkeys hvalues =>
    have hmap := Rekeyed.map hkeys hvalues
    simp only [ofValue?, hmap.isTagged]
    split
    · exact (ofWire_rekeyed hmap).map_same some
    · exact .refl (fun _ => rfl) _

end Pointer

/-! ## Wire values -/

namespace Wire

theorem ofValue_rekeyed (h : Rekeyed v w) : ConvertAlike (ofValue v) (ofValue w) := by
  induction h using Rekeyed.induct with
  | same v => exact .refl _
  | list _ ih | tuple _ ih =>
    rw [ofValue, ofValue, ofItems_eq_mapM, ofItems_eq_mapM]
    exact .list (ih.imp fun _ _ hxy => hxy.2 hxy.1)
  | map _ ih =>
    rw [ofValue, ofValue, ofEntries_eq_mapM, ofEntries_eq_mapM]
    exact .entries (fun _ => ofValue) (ih.imp fun _ _ hef => ⟨hef.1, hef.2.2 hef.2.1⟩)

end Wire

end DocQuery
