-- SUMMARY: Plain data that is encoded for the server is plain data again, in every place of a pipeline.
import DocQuery.Encoding.Stage
import DocQuery.Proofs.Wire.Data

/-!
# Encoding plain data for the server

A pipeline in its wire form is plain data. Encoding it for the server replaces tagged
objects by texts and leaves the rest as it is, so the encoded pipeline is plain data too:
no tagged object, and nothing that JSON has no form for, is left at any depth.
-/

namespace DocQuery.Encoding

open Json (IsData isData_ofPairs isData_ofPoints)
open Text.CodePoint (areApart_ofText_append)

variable {k : Nat}

/-! ## Values -/

theorem items_eq_mapM (target : Target) (xs : List Value) :
    items target xs = xs.mapM (value target) := by
  induction xs with
  | nil => rfl
  | cons x xs ih =>
    rw [items, List.mapM_cons, ih]
    rfl

theorem entries_eq_mapM (target : Target) (es : List (Value × Value)) :
    entries target es = es.mapM fun e => (value target e.2).map fun w => (e.1.keyText, w) := by
  induction es with
  | nil => rfl
  | cons e es ih =>
    rw [entries, List.mapM_cons, ih]
    cases value target e.2 <;> rfl

/-- A mapping that is no tagged object is encoded entry by entry. -/
theorem value_map {target : Target} {es : List (Value × Value)}
    (hpointer : (Value.map es).isPointer = false) (hdate : (Value.map es).isDate = false) : value target (.map es) =
      (es.mapM fun e => (value target e.2).map fun w => (e.1.keyText, w)).map
        fun fields => .object (Assoc.ofPairs fields) := by
  rw [value, if_neg (Bool.eq_false_iff.mp hpointer), if_neg (Bool.eq_false_iff.mp hdate),
    entries_eq_mapM]

/-- As an operand it is encoded operator by operator. -/
theorem operand_map {target : Target} {es : List (Value × Value)}
    (hpointer : (Value.map es).isPointer = false) (hdate : (Value.map es).isDate = false) : operand target (.map es) =
      (es.mapM fun e => (operatorOperand target e.1.keyText e.2).map fun w =>
        (e.1.keyText, w)).map fun fields => .object (Assoc.ofPairs fields) := by
  have hobject : ∀ fields? : Except Error (List (String × Value)),
      (do let fields ← fields?; .ok (.object (Assoc.ofPairs fields))) =
        fields?.map fun fields => Value.object (Assoc.ofPairs fields) := by
    rintro (_ | _) <;> rfl
  rw [operand, hpointer, hdate]
  refine (hobject _).trans (congrArg _ (mapM_congr fun e _ => ?_))
  show (operatorOperand target e.1.keyText e.2 >>= fun w => Except.ok (e.1.keyText, w)) = _
  cases operatorOperand target e.1.keyText e.2 <;> rfl

theorem isData_pointer {v w : Value} (h : pointer v = .ok w) : IsData k w := by
  obtain ⟨p?, _, h⟩ := exists_of_bind_eq_ok h
  cases p? with
  | none => cases h
  | some p =>
    cases h
    exact .text _

theorem isData_date {v w : Value} (h : date .remote v = .ok w) : IsData k w := by
  obtain ⟨s, _, rfl⟩ := exists_of_map_eq_ok h
  exact .text s

/-- Values of entries that come to plain data are plain data under any keys. -/
theorem isData_mapM {f : Value × Value → Except Error Value} {key : Value → String}
    {es : List (Value × Value)} {fields : List (String × Value)}
    (hfields : (es.mapM fun e => (f e).map fun w => (key e.1, w)) = .ok fields)
    (h : ∀ e ∈ es, ∀ w, f e = .ok w → IsData k w) : IsData k (.object (Assoc.ofPairs fields)) := by
  refine isData_ofPairs (forall_mem_of_mapM_eq_ok hfields fun e he r hr => ?_)
  obtain ⟨w, hw, rfl⟩ := exists_of_map_eq_ok hr
  exact h e he w hw

theorem isData_value {v : Value} (hv : IsData k v) :
    ∀ w, value .remote v = .ok w → IsData k w := by
  induction hv with
  | int n h =>
    rintro _ ⟨⟩
    exact .int n h
  | brokenText t h =>
    rintro _ ⟨⟩
    exact .brokenText t h
  | list _ ih =>
    intro w hw
    obtain ⟨ys, hys, rfl⟩ := exists_of_map_eq_ok hw
    rw [items_eq_mapM] at hys
    exact .list (forall_mem_of_mapM_eq_ok hys ih)
  | object _ _ ih =>
    intro w hw
    rw [Value.object, value] at hw
    split at hw
    · exact isData_pointer hw
    · split at hw
      · exact isData_date hw
      · obtain ⟨fields, hfields, rfl⟩ := exists_of_map_eq_ok hw
        rw [entries_eq_mapM] at hfields
        exact isData_mapM hfields (List.forall_mem_map.mpr ih)
  | _ =>
    rintro _ ⟨⟩
    constructor

/-! ## Match bodies -/

/-- An id among pointers gets their class, and stays a text. -/
theorem isData_member {common : Option String} {x : Value} (hx : IsData k x) {w : Value}
    (h : member .remote common x = .ok w) : IsData k w := by
  unfold member at h
  split at h
  · cases h
    cases hx with
    | brokenText t ht => exact isData_ofPoints (by rw [areApart_ofText_append, ht])
  · split at h
    · split at h
      · exact isData_value hx w h
      · cases h
        exact .text _
    · exact isData_value hx w h
  · exact isData_value hx w h

theorem isData_of_sequence? {v : Value} (hv : IsData k v) {xs : List Value}
    (h : v.sequence? = some xs) : ∀ x ∈ xs, IsData k x := by
  cases hv <;> cases h
  assumption

theorem isData_operatorOperand {op : String} {v : Value} (hv : IsData k v) {w : Value}
    (h : operatorOperand .remote op v = .ok w) : IsData k w := by
  unfold operatorOperand at h
  split at h
  · rename_i xs _ hxs
    obtain ⟨common, _, h⟩ := exists_of_bind_eq_ok h
    obtain ⟨ys, hys, rfl⟩ := exists_of_map_eq_ok h
    exact .list (forall_mem_of_mapM_eq_ok hys fun x hx w hw =>
      isData_member (isData_of_sequence? hv hxs x hx) hw)
  · exact isData_value hv w h

/-- The values of a mapping that is plain data are plain data. -/
theorem isData_of_mem {es : List (Value × Value)} (h : IsData k (.map es)) :
    ∀ e ∈ es, IsData k e.2 := by
  generalize hv : Value.map es = v at h
  cases h <;> cases hv
  exact List.forall_mem_map.mpr (by assumption)

theorem isData_operand {v : Value} (hv : IsData k v) {w : Value}
    (h : operand .remote v = .ok w) : IsData k w := by
  unfold operand at h
  split at h
  · split at h
    · exact isData_value hv w h
    · obtain ⟨fields, hfields, h⟩ := exists_of_bind_eq_ok h
      cases h
      refine isData_ofPairs (forall_mem_of_mapM_eq_ok hfields fun e he f hf => ?_)
      obtain ⟨x, hx, hf⟩ := exists_of_bind_eq_ok hf
      cases hf
      exact isData_operatorOperand (isData_of_mem hv e he) hx
  · exact isData_value hv w h

theorem isData_clause {key : String} {v : Value} (hv : IsData k v) {e : String × Value}
    (h : clause .remote key v = .ok e) : IsData k e.2 := by
  unfold clause at h
  split at h
  · obtain ⟨w, hw, rfl⟩ := exists_of_map_eq_ok h
    exact isData_value hv w hw
  · obtain ⟨w, hw, rfl⟩ := exists_of_map_eq_ok h
    exact isData_operand hv hw

theorem isData_noBodies {v w : Value} (h : noBodies v = .ok w) : IsData k w := by
  unfold noBodies at h
  split at h <;> cases h
  exact .list nofun

theorem matchEntries_eq_mapM (target : Target) (es : List (Value × Value)) :
    matchEntries target es = es.mapM fun e =>
      if isLogical e.1.keyText then
        (alternatives target e.2).map fun bs => (e.1.keyText, bs)
      else clause target e.1.keyText e.2 := by
  induction es with
  | nil => rfl
  | cons e es ih =>
    rw [matchEntries, List.mapM_cons, ih]
    rfl

theorem matchBodies_eq_mapM (target : Target) (xs : List Value) :
    matchBodies target xs = xs.mapM (matchBody target) := by
  induction xs with
  | nil => rfl
  | cons x xs ih =>
    rw [matchBodies, List.mapM_cons, ih]
    rfl

/-- A match body is encoded as plain data, and so is a list of them. -/
theorem isData_matchBody {v : Value} (hv : IsData k v) :
    (∀ w, matchBody .remote v = .ok w → IsData k w) ∧
      ∀ w, alternatives .remote v = .ok w → IsData k w := by
  induction hv with
  | list _ ih =>
    refine ⟨nofun, fun w hw => ?_⟩
    obtain ⟨ys, hys, rfl⟩ := exists_of_map_eq_ok hw
    rw [matchBodies_eq_mapM] at hys
    exact .list (forall_mem_of_mapM_eq_ok hys fun x hx => (ih x hx).1)
  | object _ h ih =>
    refine ⟨fun w hw => ?_, fun w => isData_noBodies⟩
    obtain ⟨fields, hfields, rfl⟩ := exists_of_map_eq_ok hw
    rw [matchEntries_eq_mapM] at hfields
    refine isData_ofPairs (forall_mem_of_mapM_eq_ok hfields ?_)
    refine List.forall_mem_map.mpr fun ⟨key, x⟩ he f hf => ?_
    replace hf : (if isLogical key then (alternatives .remote x).map fun bs => (key, bs)
      else clause .remote key x) = .ok f := hf
    split at hf
    · obtain ⟨bs, hbs, rfl⟩ := exists_of_map_eq_ok hf
      exact (ih _ he).2 bs hbs
    · exact isData_clause (h _ he) hf
  | _ =>
    refine ⟨nofun, fun w hw => ?_⟩
    rw [alternatives] at hw
    · exact isData_noBodies hw
    · exact nofun
    · exact nofun

/-! ## Stages -/

theorem expressions_eq_mapM (target : Target) (xs : List Value) :
    expressions target xs = xs.mapM (expression target) := by
  induction xs with
  | nil => rfl
  | cons x xs ih =>
    rw [expressions, List.mapM_cons, ih]
    rfl

theorem expressionEntries_eq_mapM (target : Target) (es : List (Value × Value)) :
    expressionEntries target es =
      es.mapM fun e => (expression target e.2).map fun w => (e.1.keyText, w) := by
  induction es with
  | nil => rfl
  | cons e es ih =>
    rw [expressionEntries, List.mapM_cons, ih]
    cases expression target e.2 <;> rfl

theorem isData_expression {v : Value} (hv : IsData k v) :
    ∀ w, expression .remote v = .ok w → IsData k w := by
  induction hv with
  | int n h =>
    rintro _ ⟨⟩
    exact .int n h
  | brokenText t h =>
    rintro _ ⟨⟩
    exact .brokenText t h
  | list _ ih =>
    intro w hw
    obtain ⟨ys, hys, rfl⟩ := exists_of_map_eq_ok hw
    rw [expressions_eq_mapM] at hys
    exact .list (forall_mem_of_mapM_eq_ok hys ih)
  | object hkeys h ih =>
    intro w hw
    rw [Value.object, expression] at hw
    split at hw
    · exact isData_value (.object hkeys h) w hw
    · obtain ⟨fields, hfields, rfl⟩ := exists_of_map_eq_ok hw
      rw [expressionEntries_eq_mapM] at hfields
      exact isData_mapM hfields (List.forall_mem_map.mpr ih)
  | _ =>
    rintro _ ⟨⟩
    constructor

theorem map_eq_of_mapping {v : Value} {es : List (Value × Value)} (h : mapping v = .ok es) :
    v = .map es := by
  cases v <;> cases h
  rfl

theorem isData_stageBody {op : String} {body : Value} (hbody : IsData k body) {w : Value}
    (h : stageBody .remote op body = .ok w) : IsData k w := by
  unfold stageBody at h
  split at h
  · exact (isData_matchBody hbody).1 w h
  · obtain ⟨es, hes, rfl⟩ := exists_of_map_eq_ok h
    rw [map_eq_of_mapping hes] at hbody
    exact isData_ofPairs (List.forall_mem_map.mpr (isData_of_mem hbody))
  · obtain ⟨es, hes, h⟩ := exists_of_bind_eq_ok h
    obtain ⟨fields, hfields, h⟩ := exists_of_bind_eq_ok h
    cases h
    rw [map_eq_of_mapping hes] at hbody
    refine isData_ofPairs (forall_mem_of_mapM_eq_ok hfields fun e he f hf => ?_)
    obtain ⟨x, hx, hf⟩ := exists_of_bind_eq_ok hf
    cases hf
    exact isData_expression (isData_of_mem hbody e he) x hx
  · exact isData_expression hbody w h
  · exact isData_expression hbody w h
  · exact isData_expression hbody w h
  · cases h
    exact hbody
  · cases h
    exact hbody
  · cases h
    exact hbody
  · exact isData_value hbody w h

/-- A stage document is encoded as plain data. -/
theorem isData_stage {v : Value} (hv : IsData k v) {w : Value} (h : stage .remote v = .ok w) :
    IsData k w := by
  obtain ⟨es, hes, h⟩ := exists_of_bind_eq_ok h
  obtain ⟨fields, hfields, h⟩ := exists_of_bind_eq_ok h
  cases h
  rw [map_eq_of_mapping hes] at hv
  have hbody : ∀ e ∈ Value.fields es, IsData k e.2 :=
    Assoc.forall_mem_ofPairs (List.forall_mem_map.mpr (isData_of_mem hv))
  have hstep : ∀ {e f : String × Value}, (do
      let w ← stageBody .remote e.1 e.2
      .ok (e.1, w)) = Except.ok f → e.1 = f.1 ∧ stageBody .remote e.1 e.2 = .ok f.2 := by
    intro e f hf
    obtain ⟨w, hw, hf⟩ := exists_of_bind_eq_ok hf
    cases hf
    exact ⟨rfl, hw⟩
  have hkeys : Assoc.keys (Value.fields es) = Assoc.keys fields :=
    Assoc.keys_of_forall₂ (mapM_eq_ok_iff.mp hfields) fun e f hf => (hstep hf).1
  refine .object (hkeys ▸ Assoc.nodup_keys_ofPairs _) ?_
  exact forall_mem_of_mapM_eq_ok hfields fun e he f hf =>
    isData_stageBody (hbody e he) (hstep hf).2

/-- A pipeline of plain data is encoded as plain data. -/
theorem isData_pipeline {docs stages : List Value} (hdocs : ∀ v ∈ docs, IsData k v)
    (h : pipeline .remote (.list docs) = .ok stages) : IsData k (.list stages) :=
  .list (forall_mem_of_mapM_eq_ok (f := stage .remote) h fun v hv _ => isData_stage (hdocs v hv))

end DocQuery.Encoding
