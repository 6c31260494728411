-- SUMMARY: What stands at a place of an expression, before and after it is encoded for the store.
import DocQuery.Proofs.Encoding.Stage
import DocQuery.Proofs.Wire.Tagged
import Mathlib.Data.List.TakeWhile

/-!
# Places in expressions

A place in an expression is reached by the names of fields and the indices of items. It
stays where it is when the expression is encoded for the store, and what stands there is
encoded. A reference that stands there is respelled only when its path begins with a system
field.
-/

namespace DocQuery

/-! ## Respelled paths -/

namespace FieldName

/-- The names that the store respells. -/
def respelled : List String :=
  ["objectId", "createdAt", "updatedAt"]

theorem mem_systemNames_of_respelled {name : String} (h : name ∈ respelled) :
    name ∈ systemNames := by
  simp only [respelled, List.mem_cons, List.not_mem_nil, or_false] at h
  rcases h with rfl | rfl | rfl <;> decide

/-- No column has a name that is respelled. -/
theorem toStorage_not_mem_respelled (name : String) : toStorage name ∉ respelled := by
  by_cases hmem : name ∈ systemNames
  · rcases mem_systemNames.mp hmem with rfl | rfl | rfl | rfl | rfl | rfl <;> decide
  · rw [toStorage_of_not_mem hmem]
    exact fun h => hmem (mem_systemNames_of_respelled h)

theorem toStorage_eq_self_iff {name : String} : toStorage name = name ↔ name ∉ respelled := by
  constructor
  · intro h
    rw [← h]
    exact toStorage_not_mem_respelled name
  · intro h
    by_cases hmem : name ∈ systemNames
    · rcases mem_systemNames.mp hmem with rfl | rfl | rfl | rfl | rfl | rfl
      all_goals first | rfl | exact absurd (by decide) h
    · exact toStorage_of_not_mem hmem

/-- The first step of a path. -/
def firstStep (path : String) : String :=
  String.ofList (path.toList.takeWhile (· != '.'))

theorem dot_not_mem_takeWhile (cs : List Char) : '.' ∉ cs.takeWhile (· != '.') :=
  fun h => by simpa using List.mem_takeWhile_imp h

theorem takeWhile_dropWhile (cs : List Char) :
    (cs.dropWhile (· != '.')).takeWhile (· != '.') = [] := by
  have hhead := List.head?_dropWhile_not (· != '.') cs
  cases hcs : cs.dropWhile (· != '.') with
  | nil => rfl
  | cons c rest =>
    rw [hcs] at hhead
    exact List.takeWhile_cons_of_neg (by simpa using hhead)

theorem firstStep_storedPath (path : String) :
    firstStep (storedPath path) = toStorage (firstStep path) := by
  have hfirst : '.' ∉ (firstStep path).toList := by
    rw [firstStep, String.toList_ofList]
    exact dot_not_mem_takeWhile _
  have hcolumn : ∀ c ∈ (toStorage (firstStep path)).toList, (c != '.') = true := by
    intro c hc
    rw [bne_iff_ne]
    rintro rfl
    exact path_toStorage hfirst hc
  show String.ofList ((toStorage (firstStep path) ++ String.ofList _).toList.takeWhile _) = _
  rw [String.toList_append, String.toList_ofList, List.takeWhile_append_of_pos hcolumn,
    takeWhile_dropWhile, List.append_nil, String.ofList_toList]

/-- The path is that of a field or of a value inside of it. -/
def IsPathFrom (name path : String) : Prop :=
  path = name ∨ ∃ rest, path = name ++ "." ++ rest

theorem takeWhile_append_dot (cs ds : List Char) :
    (cs ++ '.' :: ds).takeWhile (· != '.') = cs.takeWhile (· != '.') := by
  induction cs with
  | nil => rfl
  | cons c cs ih => rw [List.cons_append, List.takeWhile_cons, List.takeWhile_cons, ih]

theorem IsPathFrom.firstStep_eq {name path : String} (h : IsPathFrom name path) :
    firstStep path = firstStep name := by
  obtain rfl | ⟨rest, rfl⟩ := h
  · rfl
  · have hlist : (name ++ "." ++ rest).toList = name.toList ++ '.' :: rest.toList := by
      simp
    rw [firstStep, hlist, takeWhile_append_dot, ← firstStep]

/-- A path is respelled only by its first step. -/
theorem isPathFrom_storedPath_iff {name path : String} (h : IsPathFrom name path) :
    IsPathFrom name (storedPath path) ↔ firstStep name ∉ respelled := by
  constructor
  · intro hstored
    have hfirst := hstored.firstStep_eq
    rw [firstStep_storedPath, h.firstStep_eq] at hfirst
    exact toStorage_eq_self_iff.mp hfirst
  · intro hfirst
    have hsame : storedPath path = path := by
      show toStorage (firstStep path) ++ _ = _
      rw [h.firstStep_eq, toStorage_eq_self_iff.mpr hfirst, ← h.firstStep_eq, firstStep,
        ← String.ofList_append, List.takeWhile_append_dropWhile, String.ofList_toList]
    rwa [hsame]

end FieldName

namespace Encoding

/-! ## What an expression is encoded as -/

/-- A value as the encoding makes it: a reference or a compact pointer, a point in time, a
    list or a mapping. -/
inductive IsMade : Value → Prop
  | text {s : String} (h : '$' ∈ s.toList) : IsMade (.text s)
  | broken (t : Text.BrokenText) : IsMade (.brokenText t)
  | datetime (t : DateTime) : IsMade (.datetime t)
  | list (xs : List Value) : IsMade (.list xs)
  | map (es : List (Value × Value)) : IsMade (.map es)

theorem isMade_compact (p : Pointer) : IsMade (.text p.compact) := by
  refine .text ?_
  rw [Pointer.toList_compact]
  simp

theorem isMade_pointer {v w : Value} (h : pointer v = .ok w) : IsMade w := by
  unfold pointer at h
  obtain ⟨p?, _, h⟩ := exists_of_bind_eq_ok h
  cases p? with
  | none => cases h
  | some p =>
    cases h
    exact isMade_compact p

theorem isMade_date {v w : Value} (h : date .storage v = .ok w) : IsMade w := by
  obtain ⟨t, _, rfl⟩ := exists_of_map_eq_ok h
  exact .datetime t

theorem reference_eq_or (s : String) : reference s = s ∨ '$' ∈ (reference s).toList := by
  unfold reference
  split
  · exact .inl rfl
  · exact .inr (by simp)
  · exact .inl rfl

theorem isMade_ofPoints (ps : List Text.CodePoint) :
    IsMade (.ofPoints (.char '$' :: ps)) := by
  unfold Value.ofPoints
  split
  · exact .broken _
  · exact .text (by simp [Text.CodePoint.toText, Text.CodePoint.shown])

theorem isMade_brokenReference (t : Text.BrokenText) : IsMade (brokenReference t) := by
  unfold brokenReference
  split
  · exact .broken t
  · exact isMade_ofPoints _
  · exact .broken t

/-- What is encoded is a reference, a pointer, a date, a list or a mapping, or stays. -/
theorem eq_or_isMade {v w : Value} (h : expression .storage v = .ok w) : w = v ∨ IsMade w := by
  cases v with
  | text s =>
    cases h
    exact (reference_eq_or s).imp (congrArg Value.text) .text
  | brokenText t =>
    cases h
    exact .inr (isMade_brokenReference t)
  | pointer p =>
    cases h
    exact .inr (isMade_compact p)
  | date d =>
    rw [expression, value] at h
    exact .inr (isMade_date h)
  | datetime t =>
    rw [expression, value] at h
    exact .inr (isMade_date h)
  | list xs =>
    obtain ⟨ys, _, rfl⟩ := exists_of_map_eq_ok h
    exact .inr (.list ys)
  | tuple xs =>
    obtain ⟨ys, _, rfl⟩ := exists_of_map_eq_ok h
    exact .inr (.list ys)
  | map es =>
    rw [expression, value] at h
    split_ifs at h
    · exact .inr (isMade_pointer h)
    · exact .inr (isMade_date h)
    · obtain ⟨fields, _, rfl⟩ := exists_of_map_eq_ok h
      exact .inr (.map _)
    · obtain ⟨fields, _, rfl⟩ := exists_of_map_eq_ok h
      exact .inr (.map _)
  | _ =>
    cases h
    exact .inl rfl

theorem IsMade.beq_text {w : Value} (h : IsMade w) {s : String} (hs : '$' ∉ s.toList) :
    (w == .text s) = false := by
  cases h with
  | @text t ht =>
    rw [Selection.beq_text, beq_eq_false_iff_ne]
    rintro rfl
    exact hs ht
  | _ => rfl

theorem IsMade.isFlag {w : Value} (h : IsMade w) : isFlag w = false := by
  cases h <;> rfl

/-! ## Mappings -/

/-- The mapping stands for a pointer or a date. -/
def isTaggedObject (es : List (Value × Value)) : Bool :=
  (Value.map es).isPointer || (Value.map es).isDate

/-- A field is encoded under its name. -/
abbrev FieldEncoded (e f : String × Value) : Prop :=
  e.1 = f.1 ∧ expression .storage e.2 = .ok f.2

theorem forall₂_of_expressionEntries {es : List (Value × Value)} {fields : List (String × Value)}
    (h : expressionEntries .storage es = .ok fields) :
    List.Forall₂ FieldEncoded (Value.textEntries es) fields := by
  induction es generalizing fields with
  | nil =>
    cases h
    exact .nil
  | cons e es ih =>
    rw [expressionEntries] at h
    obtain ⟨w, hw, h⟩ := exists_of_bind_eq_ok h
    obtain ⟨ws, hws, h⟩ := exists_of_bind_eq_ok h
    cases h
    exact .cons ⟨rfl, hw⟩ (ih hws)

/-- The fields of an encoded mapping are its encoded fields. -/
theorem fields_encoded {es : List (Value × Value)} {fields : List (String × Value)}
    (h : List.Forall₂ FieldEncoded (Value.textEntries es) fields) :
    List.Forall₂ FieldEncoded (Value.fields es)
      (Value.fields ((Assoc.ofPairs fields).map fun (k, v) => (Value.text k, v))) := by
  rw [Value.fields_object, Assoc.ofPairs_of_nodup (Assoc.nodup_keys_ofPairs fields)]
  exact Assoc.ofPairs_forall₂_keyed (fun _ v w => expression .storage v = .ok w) h

/-- An encoded mapping stands for a pointer or a date only if the mapping does. -/
theorem isTagged_encoded {es fs : List (Value × Value)}
    (h : List.Forall₂ FieldEncoded (Value.fields es) (Value.fields fs)) {type : String}
    (htype : '$' ∉ type.toList) (huntagged : (Value.map es).isTagged type = false) :
    (Value.map fs).isTagged type = false := by
  rw [Value.isTagged, Value.field] at huntagged ⊢
  have hfound := Assoc.find?_forall₂ (fun _ v w => expression .storage v = .ok w) h "__type"
  generalize Assoc.find? "__type" (Value.fields es) = x at hfound huntagged
  generalize Assoc.find? "__type" (Value.fields fs) = y at hfound ⊢
  cases hfound with
  | none => exact huntagged
  | some hvw =>
    obtain rfl | hmade := eq_or_isMade hvw
    · exact huntagged
    · exact hmade.beq_text htype

theorem isTaggedObject_encoded {es fs : List (Value × Value)}
    (h : List.Forall₂ FieldEncoded (Value.fields es) (Value.fields fs))
    (huntagged : isTaggedObject es = false) : isTaggedObject fs = false := by
  rw [isTaggedObject, Bool.or_eq_false_iff] at huntagged ⊢
  exact ⟨isTagged_encoded h (by decide) huntagged.1, isTagged_encoded h (by decide) huntagged.2⟩

/-- A mapping that stands for nothing else is encoded field by field. -/
theorem exists_of_expression_map {es : List (Value × Value)} {w : Value}
    (huntagged : isTaggedObject es = false) (h : expression .storage (.map es) = .ok w) :
    ∃ fs, w = .map fs ∧ isTaggedObject fs = false ∧
      List.Forall₂ FieldEncoded (Value.fields es) (Value.fields fs) := by
  rw [expression, ← isTaggedObject, huntagged] at h
  obtain ⟨fields, hfields, rfl⟩ := exists_of_map_eq_ok h
  have hencoded := fields_encoded (forall₂_of_expressionEntries hfields)
  exact ⟨_, rfl, isTaggedObject_encoded hencoded huntagged, hencoded⟩

/-! ## Places -/

/-- A step to a value in an expression: to a field, or to an item. -/
inductive Step where
  | key (name : String)
  | item (index : Nat)

/-- What stands at a place of an expression. There are no places in a pointer or a date. -/
def expressionAt? : List Step → Value → Option Value
  | [], v => some v
  | .key name :: steps, .map es =>
    if isTaggedObject es then none
    else (Assoc.find? name (Value.fields es)).bind (expressionAt? steps)
  | .item i :: steps, .list xs => xs[i]?.bind (expressionAt? steps)
  | .item i :: steps, .tuple xs => xs[i]?.bind (expressionAt? steps)
  | _ :: _, _ => none

theorem forall₂_of_expressions {xs ys : List Value} (h : expressions .storage xs = .ok ys) :
    List.Forall₂ (fun x y => expression .storage x = .ok y) xs ys := by
  induction xs generalizing ys with
  | nil =>
    cases h
    exact .nil
  | cons x xs ih =>
    rw [expressions] at h
    obtain ⟨y, hy, h⟩ := exists_of_bind_eq_ok h
    obtain ⟨ws, hws, h⟩ := exists_of_bind_eq_ok h
    cases h
    exact .cons hy (ih hws)

/-- What stands at a place is encoded there. -/
theorem exists_expressionAt? {steps : List Step} {v w x : Value}
    (h : expression .storage v = .ok w) (hx : expressionAt? steps v = some x) :
    ∃ y, expressionAt? steps w = some y ∧ expression .storage x = .ok y := by
  induction steps generalizing v w with
  | nil =>
    cases hx
    exact ⟨w, rfl, h⟩
  | cons step steps ih =>
    have hitem : ∀ {xs ys : List Value} {i : Nat}, expressions .storage xs = .ok ys →
        xs[i]?.bind (expressionAt? steps) = some x →
          ∃ y, ys[i]?.bind (expressionAt? steps) = some y ∧ expression .storage x = .ok y := by
      intro xs ys i hys hfound
      obtain ⟨z, hz, hzx⟩ := Option.bind_eq_some_iff.mp hfound
      obtain ⟨z', hz', hencoded⟩ := exists_getElem?_of_forall₂ (forall₂_of_expressions hys) hz
      rw [hz']
      exact ih hencoded hzx
    cases step with
    | key name =>
      cases v with
      | map es =>
        rw [expressionAt?] at hx
        split_ifs at hx with htagged
        have huntagged := eq_false_of_ne_true htagged
        obtain ⟨fs, rfl, hfs, hfields⟩ := exists_of_expression_map huntagged h
        obtain ⟨z, hz, hzx⟩ := Option.bind_eq_some_iff.mp hx
        obtain ⟨z', hz', hzz'⟩ := exists_of_rel_some
          (Assoc.find?_forall₂ (fun _ v w => expression .storage v = .ok w) hfields name) hz
        rw [expressionAt?, hfs, hz']
        exact ih hzz' hzx
      | _ => cases hx
    | item i =>
      cases v with
      | list xs | tuple xs =>
        obtain ⟨ys, hys, rfl⟩ := exists_of_map_eq_ok h
        exact hitem hys hx
      | _ => cases hx

end Encoding

end DocQuery
