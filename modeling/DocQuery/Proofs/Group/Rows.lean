-- SUMMARY: The rows of groupings and distinct values in wire form, and what is read from them.
import DocQuery.Proofs.Document
import DocQuery.Proofs.Group.Key
import DocQuery.Proofs.Group.Lookup
import DocQuery.Query.Run

/-!
# Rows of groupings, read

The rows that the store leaves come back in wire form. A key is shown as it is, but for a
point in time, which becomes a tagged date. A key that is shown can always be read: no row is
lost and no row is refused.
-/

namespace DocQuery

open Document (IsShownAs toWire)
open Value (IsKey)

/-! ## Keys -/

namespace Value

/-- The wire form of a key. -/
inductive IsShownKey : Value → Prop
  | null : IsShownKey .null
  | bool (b : Bool) : IsShownKey (.bool b)
  | int (n : Int) : IsShownKey (.int n)
  | text (s : String) : IsShownKey (.text s)
  | date (s : String) : IsShownKey (Wire.taggedDate (.text s))

/-- A key has a wire form, and only null is shown as null. -/
theorem IsKey.exists_shown {v : Value} (h : v.IsKey) :
    ∃ w, IsShownAs v w ∧ w.IsShownKey ∧ w.isNull = v.isNull := by
  cases h with
  | null => exact ⟨.null, rfl, .null, rfl⟩
  | bool b => exact ⟨.bool b, rfl, .bool b, rfl⟩
  | int n => exact ⟨.int n, rfl, .int n, rfl⟩
  | text s => exact ⟨.text s, rfl, .text s, rfl⟩
  | @datetime t u hutc =>
    refine ⟨Wire.taggedDate (.text u.wireText), ?_, .date u.wireText, rfl⟩
    show Wire.date (.datetime t) = _
    simp only [Wire.date, Wire.isoText, DateTime.ofValue, hutc]
    rfl

namespace IsShownKey

variable {w : Value}

theorem exists_pointer (h : w.IsShownKey) : ∃ p?, Pointer.ofValue? w = .ok p? := by
  cases h <;> exact ⟨_, rfl⟩

theorem isNested (h : w.IsShownKey) : w.IsNested := by
  cases h with
  | null => exact .leaf (.scalar .null)
  | bool b => exact .leaf (.scalar (.bool b))
  | int n => exact .leaf (.scalar (.int n))
  | text s => exact .leaf (.scalar (.text s))
  | date s =>
    have hdate : Wire.taggedDate (.text s) =
        .map [(.text "__type", .text "Date"), (.text "iso", .text s)] := rfl
    have htext : ∀ t : String, (Value.text t).IsNested := fun t => .leaf (.scalar (.text t))
    rw [hdate]
    exact .map (by simp [IsText.text]) (by simp; cbv) (by simp [htext])

theorem exists_hashedKey (h : w.IsShownKey) : ∃ k, w.hashedKey = .ok k :=
  h.isNested.exists_hashedKey.imp fun _ hk => hk.1

end IsShownKey

end Value

/-! ## Groups -/

namespace GroupPlan

/-- A key of a group is read, and can be looked up. -/
theorem exists_decodeKey (p : FieldPlan) {w : Value} (h : w.IsShownKey) :
    ∃ key, (byField p).decodeKey w = .ok key ∧ ∃ k, key.hashedKey = .ok k := by
  obtain ⟨k, hk⟩ := h.exists_hashedKey
  obtain ⟨p?, hp⟩ := h.exists_pointer
  by_cases hnull : w = .null
  · subst hnull
    exact ⟨.null, rfl, k, hk⟩
  · have hdecode : (byField p).decodeKey w =
        if p.pointer then (Pointer.ofValue? w).map fun found => found.elim w .pointer
        else .ok w := by
      cases w with
      | null => exact absurd rfl hnull
      | _ => rfl
    rw [hdecode, hp]
    cases p.pointer with
    | false => exact ⟨w, rfl, k, hk⟩
    | true =>
      cases p? with
      | none => exact ⟨w, rfl, k, hk⟩
      | some q => exact ⟨.pointer q, rfl, .pointer q, rfl⟩

/-- The collected rows of a group. -/
def members (collects : Bool) (rows : List Value) : Value :=
  if collects then .tuple rows else .null

/-- The fields that the row of a group has are plain columns. -/
theorem isField_of_mem {name : String} (h : name ∈ ["key", "count", "members"]) :
    FieldName.IsField name := by
  simp only [List.mem_cons, List.not_mem_nil, or_false] at h
  rcases h with rfl | rfl | rfl <;> exact ⟨by decide, by decide, by decide⟩

/-- The row of a group, in wire form. -/
def shownRow (collects : Bool) (key : Value) (count : Nat) (rows : List Value) : Value :=
  .object (("key", key) :: ("count", .int count) ::
    if collects then [("members", .list rows)] else [])

theorem decodeRow_shownRow {p : FieldPlan} {className w key : Value} (count : Nat)
    (rows : List Value) (hkey : (byField p).decodeKey w = .ok key) :
    (byField p).decodeRow className (shownRow p.rowOrder.isWanted w count rows) =
      .ok ⟨key, .int count, members p.rowOrder.isWanted rows⟩ := by
  have hmembers : (byField p).decodeMembers className
      (if p.rowOrder.isWanted then .list rows else .null) =
        .ok (members p.rowOrder.isWanted rows) := by
    show (if p.rowOrder.isWanted then _ else _) = _
    unfold members
    cases p.rowOrder.isWanted with
    | false => rfl
    | true => cases rows <;> rfl
  have hrow : (byField p).decodeRow className (shownRow p.rowOrder.isWanted w count rows) = (do
      let key ← (byField p).decodeKey w
      let members ← (byField p).decodeMembers className
        (if p.rowOrder.isWanted then .list rows else .null)
      .ok ⟨key, .int count, members⟩) := by
    unfold shownRow
    cases p.rowOrder.isWanted <;> rfl
  rw [hrow, hkey, hmembers]
  rfl

/-- Rows that are read as groups whose keys can be looked up are read as a result. -/
theorem exists_decode {plan : GroupPlan} {className : Value} {rows : List Value}
    {groups : List Group} (h : List.Forall₂ (fun row g => plan.decodeRow className row = .ok g ∧
      ∃ k, g.key.hashedKey = .ok k) rows groups) :
    ∃ r, plan.decode className (.list rows) = .ok r ∧ r.toGroups = groups ∧
      r.labelling = some plan.labelling.label := by
  obtain ⟨r, hr, hgroups⟩ := GroupResult.exists_ofGroups
    (forall_mem_of_forall₂ h fun _ _ hg => hg.2) (some plan.labelling.label)
  refine ⟨r, ?_, hgroups⟩
  show rows.mapM (plan.decodeRow className) >>= _ = _
  rw [mapM_eq_ok_iff.mpr (h.imp fun _ _ hg => hg.1)]
  exact hr

end GroupPlan

/-! ## Distinct values -/

namespace DistinctPlan

theorem exists_asPointer? (p : DistinctPlan) {w : Value} (h : w.IsShownKey) :
    ∃ p?, p.asPointer? w = .ok p? := by
  unfold asPointer?
  split
  · exact ⟨none, rfl⟩
  · exact h.exists_pointer

theorem length_of_allSome {α : Type} {xs : List (Option α)} {ys : List α}
    (h : allSome xs = some ys) : ys.length = xs.length := by
  induction xs generalizing ys with
  | nil =>
    cases h
    rfl
  | cons x xs ih =>
    cases x with
    | none => cases h
    | some a =>
      obtain ⟨rest, hrest, rfl⟩ := Option.map_eq_some_iff.mp h
      rw [List.length_cons, List.length_cons, ih hrest]

theorem length_shown (p : DistinctPlan) (pointers : List Pointer) :
    (p.shown pointers).length = pointers.length := by
  cases pointers with
  | nil => rfl
  | cons q rest =>
    simp only [shown]
    split
    · exact List.length_map _
    · split <;> exact List.length_map _

theorem valuesOf_shown (ws : List Value) :
    valuesOf (ws.map fun w => .object [("value", w)]) = ws.filter fun w => !w.isNull := by
  rw [valuesOf, List.filterMap_map, ← List.filterMap_eq_filter]
  refine congrFun (congrArg List.filterMap (funext fun w => ?_)) ws
  cases w <;> rfl

/-- One value is read from each row that does not show null. -/
theorem exists_decode (p : DistinctPlan) {ws : List Value} (h : ∀ w ∈ ws, w.IsShownKey) :
    ∃ values, p.decode (ws.map fun w => .object [("value", w)]) = .ok values ∧
      values.length = (ws.filter fun w => !w.isNull).length := by
  obtain ⟨pointers, hpointers⟩ : ∃ pointers,
      (ws.filter fun w => !w.isNull).mapM p.asPointer? = .ok pointers :=
    exists_mapM_eq_ok fun w hw => p.exists_asPointer? (h w (List.mem_of_mem_filter hw))
  have hdecode : p.decode (ws.map fun w => .object [("value", w)]) =
      .ok ((allSome pointers).elim (ws.filter fun w => !w.isNull) p.shown) := by
    rw [decode, valuesOf_shown, hpointers]
    rfl
  refine ⟨_, hdecode, ?_⟩
  cases hall : allSome pointers with
  | none => rfl
  | some ps =>
    show (p.shown ps).length = _
    rw [length_shown, length_of_allSome hall]
    exact (mapM_eq_ok_iff.mp hpointers).length_eq.symm

end DistinctPlan

end DocQuery
