-- SUMMARY: An encoded body selects a stored document exactly when the wire body selects its wire form.
import DocQuery.Proofs.Encoding.Targets
import DocQuery.Proofs.Selection.Stored

/-!
# Selection by encoded bodies

A clause of the wire body and its encoded clause look at different places: the field that
is shown, and the column or the pointer column. Whatever a stored document holds there,
both hold or neither does. So the encoded body selects the document when the wire body
selects its wire form, for any nesting of the bodies.
-/

namespace DocQuery.Selection

open Encoding (holdsPointer isLogical)
open FieldName (IsField toStorage ofStorage pointerColumn)

variable (search : Value → Bool → Value → Bool)

/-! ## Operands -/

/-- An operand of a wire clause; the flag tells pointers from everything else. -/
inductive IsOperand : Bool → Value → Prop
  | scalar {v : Value} (h : v.IsScalar) : IsOperand false v
  | date {t : DateTime} (hvalid : t.isValid = true) (hyear : 1000 ≤ t.date.year) :
    IsOperand false (Wire.taggedDate (.text t.wireText))
  | pointer {p : Pointer} (hfull : p.IsFull) (hclass : '$' ∉ p.className.toList) :
    IsOperand true p.toWire

theorem IsOperand.isPointer {pointers : Bool} {v : Value} (h : IsOperand pointers v) :
    v.isPointer = pointers := by
  cases h with
  | scalar h => exact h.isPointer
  | date _ _ => rfl
  | pointer _ _ => rfl

/-- What a clause with pointers finds, or one without. -/
def side (pointers : Bool) (x y : Option Value) : Option Value :=
  if pointers then y else x

theorem equals_of_isScalar {u : Value} (hu : u.IsScalar) (v : Value) :
    equals u v = (u == v) := by
  cases hu <;> rfl

theorem stamp_beq_iff {t u : DateTime} (ht : IsStamp t) (hu : u.isValid = true)
    (hyear : 1000 ≤ u.date.year) : (Value.datetime t == Value.datetime u.cut) =
      (Wire.taggedDate (.text t.wireText) == Wire.taggedDate (.text u.wireText)) := by
  rw [Bool.eq_iff_iff, Wire.taggedDate_beq, DateTime.wireText_eq_iff ht.valid hu ht.year hyear,
    DateTime.cut_of_whole ht.whole ht.utc]
  exact DateTime.same_iff ht.valid (DateTime.isValid_cut hu) ht.utc rfl

/-- What the store holds meets `w` exactly when what is shown meets `v`. -/
def StandsFor (pointers : Bool) (w v : Value) : Prop :=
  ∀ {x y z : Option Value}, Found x y z →
    (side pointers x y).any (equals · w) = z.any (equals · v)

theorem IsOperand.encode {pointers : Bool} {v : Value} (h : IsOperand pointers v) :
    ∃ w, Encoding.value .storage v = .ok w ∧ w.isMap = false ∧ StandsFor pointers w v := by
  cases h with
  | scalar hv =>
    refine ⟨v, hv.encode .storage, hv.isMap, fun hfound => ?_⟩
    cases hfound with
    | absent => rfl
    | plain _ => rfl
    | stamp ht =>
      show (Value.datetime _ == v) = (Wire.taggedDate _ == v)
      rw [hv.datetime_beq, Wire.taggedDate, Value.object, Value.map_beq_of_not_isMap hv.isMap]
    | @pointer p _ =>
      show false = (p.toWire == v)
      rw [Pointer.toWire, Value.object, Value.map_beq_of_not_isMap hv.isMap]
  | @date u hvalid hyear =>
    refine ⟨_, Wire.encode_taggedDate hvalid hyear, rfl, fun hfound => ?_⟩
    cases hfound with
    | absent => rfl
    | @plain s hs =>
      show equals s _ = equals s _
      rw [equals_of_isScalar hs, equals_of_isScalar hs, hs.beq_datetime, Wire.taggedDate,
        Value.object, Value.beq_map_of_not_isMap hs.isMap]
    | stamp ht => exact stamp_beq_iff ht hvalid hyear
    | @pointer p _ =>
      show false = (p.toWire == _)
      rw [Pointer.toWire, Wire.taggedDate, Value.object, Value.object,
        Value.map_beq_of_length_ne (by simp)]
  | @pointer p hfull hclass =>
    refine ⟨_, Pointer.encode_toWire hfull .storage, rfl, fun hfound => ?_⟩
    cases hfound with
    | absent => rfl
    | @plain s hs =>
      show false = equals s _
      rw [equals_of_isScalar hs, Pointer.toWire, Value.object,
        Value.beq_map_of_not_isMap hs.isMap]
    | stamp _ =>
      show false = (Wire.taggedDate _ == _)
      rw [Pointer.toWire, Wire.taggedDate, Value.object, Value.object,
        Value.map_beq_of_length_ne (by simp)]
    | @pointer q hq =>
      show (Value.text q.compact == Value.text p.compact) = (q.toWire == p.toWire)
      rw [beq_text, Bool.eq_iff_iff, beq_iff_eq, Pointer.toWire_beq]
      exact ⟨Pointer.compact_inj hq hclass, congrArg Pointer.compact⟩

/-! ## Lists of operands -/

/-- No operand takes a class from the others. -/
theorem member_eq_value {pointers : Bool} {v : Value} (h : IsOperand pointers v)
    {common : Option String} (hcommon : pointers = false → common = none) :
    Encoding.member .storage common v = Encoding.value .storage v := by
  cases h with
  | scalar _ =>
    rw [hcommon rfl]
    rfl
  | date _ _ =>
    rw [hcommon rfl]
    rfl
  | pointer _ _ => cases common <;> rfl

theorem members_encode {pointers : Bool} {vs : List Value}
    (h : ∀ v ∈ vs, IsOperand pointers v) {common : Option String}
    (hcommon : pointers = false → common = none) :
    ∃ ws, vs.mapM (Encoding.member .storage common) = .ok ws ∧
      List.Forall₂ (StandsFor pointers) ws vs := by
  induction vs with
  | nil => exact ⟨[], rfl, .nil⟩
  | cons v vs ih =>
    have hv := h v List.mem_cons_self
    obtain ⟨w, hw, _, hstands⟩ := hv.encode
    obtain ⟨ws, hws, hrest⟩ := ih fun v' hv' => h v' (List.mem_cons_of_mem v hv')
    refine ⟨w :: ws, ?_, .cons hstands hrest⟩
    rw [List.mapM_cons, member_eq_value hv hcommon, hw, hws]
    rfl

/-- A list of operands is encoded operand by operand. -/
theorem membership_encode {pointers : Bool} {vs : List Value}
    (h : ∀ v ∈ vs, IsOperand pointers v) : ∃ ws,
      Encoding.membership .storage vs = .ok (.list ws) ∧
        List.Forall₂ (StandsFor pointers) ws vs := by
  obtain ⟨common, hclass, hpointer⟩ :=
    Encoding.exists_commonClass? fun v hv => (h v hv).encode.imp fun _ hw => hw.1
  have hcommon : pointers = false → common = none := by
    rintro rfl
    rw [← Option.not_isSome_iff_eq_none, hpointer, Bool.not_eq_true]
    exact Encoding.hasPointerAtTop_list fun v hv => (h v hv).isPointer
  obtain ⟨ws, hws, hstands⟩ := members_encode h hcommon
  refine ⟨ws, ?_, hstands⟩
  rw [Encoding.membership, hclass]
  show (vs.mapM (Encoding.member .storage common)).map Value.list = _
  rw [hws]
  rfl

theorem any_among (x : Option Value) (ws : List Value) :
    x.any (among · (.list ws)) = ws.any fun w => x.any (equals · w) := by
  cases x with
  | none => simp
  | some u => rfl

theorem any_among_alike {pointers : Bool} {ws vs : List Value}
    (h : List.Forall₂ (StandsFor pointers) ws vs) {x y z : Option Value} (hfound : Found x y z) :
    (side pointers x y).any (among · (.list ws)) = z.any (among · (.list vs)) := by
  rw [any_among, any_among]
  induction h with
  | nil => rfl
  | cons hhead _ ih => rw [List.any_cons, List.any_cons, hhead hfound, ih]

/-! ## Conditions -/

/-- A store operator of a wire clause, with its operand. -/
inductive IsComparison (pointers : Bool) : String × Value → Prop
  | equal {v : Value} (h : IsOperand pointers v) : IsComparison pointers ("$eq", v)
  | notEqual {v : Value} (h : IsOperand pointers v) : IsComparison pointers ("$ne", v)
  | among {vs : List Value} (h : ∀ v ∈ vs, IsOperand pointers v) :
    IsComparison pointers ("$in", .list vs)
  | notAmong {vs : List Value} (h : ∀ v ∈ vs, IsOperand pointers v) :
    IsComparison pointers ("$nin", .list vs)

/-- What a wire clause compares a field with. -/
inductive IsCondition (pointers : Bool) : Value → Prop
  | operand {v : Value} (h : IsOperand pointers v) : IsCondition pointers v
  | operators {ops : List (String × Value)} (hnodup : (Assoc.keys ops).Nodup)
    (h : ∀ o ∈ ops, IsComparison pointers o) : IsCondition pointers (.object ops)

theorem IsComparison.lead {pointers : Bool} {o : String × Value} (h : IsComparison pointers o) :
    o.1.toList.head? = some '$' := by
  cases h <;> simp

/-- An operator and its encoding hold alike. -/
def HoldsAlike (pointers : Bool) (c o : String × Value) : Prop :=
  c.1 = o.1 ∧ ∀ {options options' x y z : Option Value}, Found x y z →
    operatorHolds search options c.1 c.2 (side pointers x y) =
      operatorHolds search options' o.1 o.2 z

theorem IsComparison.encode {pointers : Bool} {o : String × Value}
    (h : IsComparison pointers o) : ∃ w, Encoding.operatorOperand .storage o.1 o.2 = .ok w ∧
      HoldsAlike search pointers (o.1, w) o := by
  cases h with
  | equal hv =>
    obtain ⟨w, hw, _, hstands⟩ := hv.encode
    exact ⟨w, hw, rfl, fun hfound => hstands hfound⟩
  | notEqual hv =>
    obtain ⟨w, hw, _, hstands⟩ := hv.encode
    exact ⟨w, hw, rfl, fun hfound => congrArg not (hstands hfound)⟩
  | among hvs =>
    obtain ⟨ws, hws, hstands⟩ := membership_encode hvs
    exact ⟨_, hws, rfl, fun hfound => any_among_alike hstands hfound⟩
  | notAmong hvs =>
    obtain ⟨ws, hws, hstands⟩ := membership_encode hvs
    exact ⟨_, hws, rfl, fun hfound => congrArg not (any_among_alike hstands hfound)⟩

theorem operators_encode {pointers : Bool} {ops : List (String × Value)}
    (h : ∀ o ∈ ops, IsComparison pointers o) : ∃ cs,
      ((ops.map fun (k, v) => (Value.text k, v)).mapM fun (k, x) => do
        let w ← Encoding.operatorOperand .storage k.keyText x
        .ok (k.keyText, w)) = .ok cs ∧ List.Forall₂ (HoldsAlike search pointers) cs ops := by
  induction ops with
  | nil => exact ⟨[], rfl, .nil⟩
  | cons o ops ih =>
    obtain ⟨w, hw, halike⟩ := (h o List.mem_cons_self).encode search
    obtain ⟨cs, hcs, hrest⟩ := ih fun o' ho' => h o' (List.mem_cons_of_mem o ho')
    refine ⟨(o.1, w) :: cs, ?_, .cons halike hrest⟩
    rw [List.map_cons, List.mapM_cons, hcs]
    show (Encoding.operatorOperand .storage o.1 o.2 >>= fun w => Except.ok (o.1, w)) >>= _ = _
    rw [hw]
    rfl

theorem keys_of_holdsAlike {pointers : Bool} {cs ops : List (String × Value)}
    (h : List.Forall₂ (HoldsAlike search pointers) cs ops) : Assoc.keys cs = Assoc.keys ops := by
  induction h with
  | nil => rfl
  | cons hhead _ ih => rw [Assoc.keys_cons, Assoc.keys_cons, hhead.1, ih]

/-- An operator document is no tagged object. -/
theorem not_isTagged_operators {pointers : Bool} {ops : List (String × Value)}
    (h : ∀ o ∈ ops, IsComparison pointers o) (type : String) :
    (Value.object ops).isTagged type = false := by
  refine Value.not_isTagged_of_keys ?_ type
  rw [List.forall_mem_map]
  rintro o ho (hname : o.1 = "__type")
  have hlead := (h o ho).lead
  rw [hname] at hlead
  cases hlead

theorem holds_empty (x : Option Value) {z y : Option Value} {pointers : Bool}
    (hfound : Found x y z) : holds search (.object []) (side pointers x y) =
      holds search (.object []) z := by
  have hscalar : ∀ {u : Value}, u.IsScalar → equals u (.object []) = false := by
    intro u hu
    rw [equals_of_isScalar hu, Value.object, Value.beq_map_of_not_isMap hu.isMap]
  cases hfound with
  | absent => cases pointers <;> rfl
  | plain hu =>
    cases pointers with
    | false => rfl
    | true => exact (hscalar hu).symm
  | stamp _ => cases pointers <;> rfl
  | pointer _ => cases pointers <;> rfl

theorem all_holdsAlike {pointers : Bool} {cs ops : List (String × Value)}
    (h : List.Forall₂ (HoldsAlike search pointers) cs ops) (options options' : Option Value)
    {x y z : Option Value} (hfound : Found x y z) :
    (cs.all fun (op, arg) => operatorHolds search options op arg (side pointers x y)) =
      ops.all fun (op, arg) => operatorHolds search options' op arg z := by
  induction h with
  | nil => rfl
  | cons hhead _ ih =>
    rw [List.all_cons, List.all_cons, ih]
    exact congrArg (· && _) (hhead.2 hfound)

/-- The operators of a condition are encoded one by one, and the condition holds alike. -/
theorem encode_operators {pointers : Bool} {ops : List (String × Value)}
    (hnodup : (Assoc.keys ops).Nodup) (h : ∀ o ∈ ops, IsComparison pointers o) :
    ∃ w, Encoding.operand .storage (.object ops) = .ok w ∧ ∀ {x y z}, Found x y z →
      holds search w (side pointers x y) = holds search (.object ops) z := by
  obtain ⟨cs, hcs, halike⟩ := operators_encode search h
  have hkeys := keys_of_holdsAlike search halike
  have hcs' : Assoc.ofPairs cs = cs := by
    refine Assoc.ofPairs_of_nodup ?_
    rw [hkeys]
    exact hnodup
  have hpointer : (Value.object ops).isPointer = false :=
    not_isTagged_operators h "Pointer"
  have hdate : (Value.object ops).isDate = false := not_isTagged_operators h "Date"
  refine ⟨.object cs, ?_, fun hfound => ?_⟩
  · rw [Value.object] at hpointer hdate ⊢
    simp only [Encoding.operand, hpointer, hdate, Bool.or_self, Bool.false_eq_true, if_false]
    rw [hcs]
    exact congrArg (Except.ok ∘ Value.object) hcs'
  · cases halike with
    | nil => exact holds_empty search _ hfound
    | @cons c o cs ops hhead htail =>
      have hlead : ∀ c' ∈ c :: cs, c'.1.toList.head? = some '$' := by
        intro c' hc'
        have hmem : c'.1 ∈ Assoc.keys (o :: ops) := by
          rw [← hkeys]
          exact List.mem_map_of_mem hc'
        obtain ⟨o', ho', heq⟩ := List.mem_map.mp hmem
        rw [← heq]
        exact (h o' ho').lead
      rw [holds_operators search (List.cons_ne_nil c cs) hlead,
        holds_operators search (List.cons_ne_nil o ops) fun o' ho' => (h o' ho').lead]
      exact all_holdsAlike search (.cons hhead htail) _ _ hfound

theorem operand_eq_value {pointers : Bool} {v : Value} (h : IsOperand pointers v) :
    Encoding.operand .storage v = Encoding.value .storage v := by
  cases h with
  | scalar hv => cases hv <;> rfl
  | date _ _ => rfl
  | pointer _ _ => rfl

theorem not_readsAsOperators_of_not_isMap {v : Value} (hv : v.isMap = false) :
    readsAsOperators v = false := by
  cases v with
  | map es => cases hv
  | _ => rfl

/-- An operand by itself is a value to be equal to. -/
theorem IsOperand.not_readsAsOperators {pointers : Bool} {v : Value} (h : IsOperand pointers v) :
    readsAsOperators v = false := by
  cases h with
  | scalar hv => exact not_readsAsOperators_of_not_isMap hv.isMap
  | date _ _ => rfl
  | pointer _ _ => rfl

theorem IsCondition.encode {pointers : Bool} {v : Value} (h : IsCondition pointers v) :
    ∃ w, Encoding.operand .storage v = .ok w ∧ ∀ {x y z}, Found x y z →
      holds search w (side pointers x y) = holds search v z := by
  cases h with
  | operand hv =>
    obtain ⟨w, hw, hmap, hstands⟩ := hv.encode
    refine ⟨w, (operand_eq_value hv).trans hw, fun hfound => ?_⟩
    rw [holds_of_not_readsAsOperators search (not_readsAsOperators_of_not_isMap hmap),
      holds_of_not_readsAsOperators search hv.not_readsAsOperators]
    exact hstands hfound
  | operators hnodup hops => exact encode_operators search hnodup hops

/-! ## Clauses -/

theorem hasPointerAtTop_operand {pointers : Bool} {v : Value} (h : IsOperand pointers v) :
    Encoding.hasPointerAtTop v = pointers := by
  have hsequence : v.sequence? = none := by
    cases h with
    | scalar hv => cases hv <;> rfl
    | date _ _ => rfl
    | pointer _ _ => rfl
  rw [Encoding.hasPointerAtTop, h.isPointer, hsequence]
  cases pointers <;> rfl

theorem hasPointerAtTop_list {pointers : Bool} {v : Value} {vs : List Value}
    (h : ∀ u ∈ v :: vs, IsOperand pointers u) :
    Encoding.hasPointerAtTop (.list (v :: vs)) = pointers := by
  cases pointers with
  | true =>
    show (v :: vs).any Value.isPointer = true
    rw [List.any_cons, (h v List.mem_cons_self).isPointer]
    rfl
  | false => exact Encoding.hasPointerAtTop_list fun u hu => (h u hu).isPointer

/-- A list without operands is one without pointers as well. -/
theorem IsComparison.pointers {pointers : Bool} {o : String × Value}
    (h : IsComparison pointers o) : Encoding.hasPointerAtTop o.2 = pointers ∨
      Encoding.hasPointerAtTop o.2 = false ∧ IsComparison false o := by
  cases h with
  | equal hv => exact .inl (hasPointerAtTop_operand hv)
  | notEqual hv => exact .inl (hasPointerAtTop_operand hv)
  | @among vs hvs =>
    cases vs with
    | nil => exact .inr ⟨rfl, .among fun v hv => by cases hv⟩
    | cons v vs => exact .inl (hasPointerAtTop_list hvs)
  | @notAmong vs hvs =>
    cases vs with
    | nil => exact .inr ⟨rfl, .notAmong fun v hv => by cases hv⟩
    | cons v vs => exact .inl (hasPointerAtTop_list hvs)

theorem holdsPointer_operators {pointers : Bool} {ops : List (String × Value)}
    (h : ∀ o ∈ ops, IsComparison pointers o) :
    holdsPointer (.object ops) = ops.any fun o => Encoding.hasPointerAtTop o.2 := by
  have hpointer : (Value.object ops).isPointer = false := not_isTagged_operators h "Pointer"
  rw [holdsPointer, hpointer, not_isTagged_operators h "Date"]
  simp [Value.object, Value.entries?, List.any_map, Function.comp_def]

theorem holdsPointer_operand {pointers : Bool} {v : Value} (h : IsOperand pointers v) :
    holdsPointer v = pointers := by
  cases h with
  | scalar hv => cases hv <;> rfl
  | date _ _ => rfl
  | pointer _ _ => rfl

/-- A condition is on the pointer column exactly when its operands are pointers, or there
    are none. -/
theorem IsCondition.pointers {pointers : Bool} {v : Value} (h : IsCondition pointers v) :
    IsCondition (holdsPointer v) v := by
  cases h with
  | operand hv =>
    rw [holdsPointer_operand hv]
    exact .operand hv
  | @operators ops hnodup hops =>
    rw [holdsPointer_operators hops]
    cases hany : ops.any fun o => Encoding.hasPointerAtTop o.2 with
    | true =>
      obtain ⟨o, ho, htop⟩ := List.any_eq_true.mp hany
      rcases (hops o ho).pointers with hsame | ⟨hplain, _⟩
      · rw [← htop, hsame]
        exact .operators hnodup hops
      · rw [hplain] at htop
        cases htop
    | false =>
      refine .operators hnodup fun o ho => ?_
      have htop : Encoding.hasPointerAtTop o.2 = false :=
        Bool.eq_false_iff.mpr (List.any_eq_false.mp hany o ho)
      rcases (hops o ho).pointers with hsame | ⟨_, hplain⟩
      · rw [← htop, hsame]
        exact hops o ho
      · exact hplain

variable {columns fields : List (String × Value)}

/-- An entry at a key without dots that is no logical key looks among the columns. -/
theorem entryHolds_column {key : String} (hlead : key.toList.head? ≠ some '$')
    (hpath : '.' ∉ key.toList) (columns : List (String × Value)) (v : Value) :
    entryHolds search (.object columns) key v = holds search v (Assoc.find? key columns) := by
  rw [entryHolds, Encoding.not_logical_of_lead hlead, at?_object hpath]
  rfl

/-- A clause of a body and its encoding: the name is decoded, and both hold alike. -/
def EntryAlike (columns fields : List (String × Value)) (c f : String × Value) : Prop :=
  ofStorage c.1 = f.1 ∧ entryHolds search (.object columns) c.1 c.2 =
    entryHolds search (.object fields) f.1 f.2

/-- A condition on a field is encoded to one on what is stored for the field. -/
theorem clause_encode (hshown : ShownAll columns fields) (hnodup : (Assoc.keys fields).Nodup)
    {name : String} (hname : IsField name) {pointers : Bool} {v : Value}
    (hv : IsCondition pointers v) : ∃ c, Encoding.clause .storage name v = .ok c ∧
      EntryAlike search columns fields c (name, v) := by
  obtain ⟨w, hw, halike⟩ := hv.pointers.encode search
  have hfound := found hshown hnodup hname
  refine ⟨(Encoding.clauseName .storage name v, w), ?_, ?_⟩
  · rw [Encoding.clause, if_neg hname.operator, hw]
    rfl
  · rw [EntryAlike, entryHolds_column search hname.operator hname.path, ← halike hfound]
    cases hpointer : holdsPointer v with
    | true =>
      have hlead : (pointerColumn name).toList.head? ≠ some '$' := by
        rw [FieldName.toList_pointerColumn hname.column]
        simp
      simp only [Encoding.clauseName, hpointer, if_true]
      rw [entryHolds_column search hlead (FieldName.path_pointerColumn hname)]
      exact ⟨FieldName.ofStorage_pointerColumn hname.column, rfl⟩
    | false =>
      simp only [Encoding.clauseName, hpointer, Bool.false_eq_true, if_false]
      rw [entryHolds_column search (FieldName.operator_toStorage hname.operator)
        (FieldName.path_toStorage hname.path)]
      exact ⟨FieldName.ofStorage_toStorage hname.column, rfl⟩

/-! ## Bodies -/

/-- A match body in wire form: conditions on fields, and lists of bodies under logical keys. -/
inductive IsBody : Value → Prop
  | mk {clauses : List (String × Value)} (hnodup : (Assoc.keys clauses).Nodup)
    (hclause : ∀ c ∈ clauses, IsField c.1 ∧ (∃ pointers, IsCondition pointers c.2) ∨
      isLogical c.1 = true ∧ ∃ bodies, c.2 = .list bodies)
    (hbodies : ∀ key bodies, (key, .list bodies) ∈ clauses → isLogical key = true →
      ∀ b ∈ bodies, IsBody b) : IsBody (.object clauses)

/-- A body is encoded, and both select alike. -/
def Encodes (columns fields : List (String × Value)) (m : Value) : Prop :=
  ∃ enc, Encoding.matchBody .storage m = .ok enc ∧
    selects search (.object columns) enc = selects search (.object fields) m

theorem bodies_encode {bodies : List Value}
    (h : ∀ b ∈ bodies, Encodes search columns fields b) : ∃ encs,
      Encoding.matchBodies .storage bodies = .ok encs ∧
        encs.map (selects search (.object columns)) =
          bodies.map (selects search (.object fields)) := by
  induction bodies with
  | nil => exact ⟨[], rfl, rfl⟩
  | cons b bodies ih =>
    obtain ⟨enc, henc, hselects⟩ := h b List.mem_cons_self
    obtain ⟨encs, hencs, hrest⟩ := ih fun b' hb' => h b' (List.mem_cons_of_mem b hb')
    refine ⟨enc :: encs, ?_, ?_⟩
    · rw [Encoding.matchBodies, henc, hencs]
      rfl
    · rw [List.map_cons, List.map_cons, hselects, hrest]

theorem alternatives_encode {key : String} (hkey : isLogical key = true) {bodies : List Value}
    (h : ∀ b ∈ bodies, Encodes search columns fields b) : ∃ bs,
      Encoding.alternatives .storage (.list bodies) = .ok bs ∧
        EntryAlike search columns fields (key, bs) (key, .list bodies) := by
  obtain ⟨encs, hencs, hselects⟩ := bodies_encode search h
  refine ⟨.list encs, ?_, ?_, ?_⟩
  · rw [Encoding.alternatives, hencs]
    rfl
  · refine FieldName.ofStorage_of_lead ?_
    rw [Encoding.lead_of_logical hkey]
    simp
  · simp only [entryHolds, hkey, if_true, verdicts_list, hselects]

theorem clauses_encode (hshown : ShownAll columns fields) (hnodup : (Assoc.keys fields).Nodup)
    {clauses : List (String × Value)}
    (hclause : ∀ c ∈ clauses, IsField c.1 ∧ (∃ pointers, IsCondition pointers c.2) ∨
      isLogical c.1 = true ∧ ∃ bodies, c.2 = .list bodies)
    (hbodies : ∀ key bodies, (key, .list bodies) ∈ clauses → isLogical key = true →
      ∀ b ∈ bodies, Encodes search columns fields b) : ∃ encs,
      Encoding.matchEntries .storage (clauses.map fun (k, v) => (Value.text k, v)) = .ok encs ∧
        List.Forall₂ (EntryAlike search columns fields) encs clauses := by
  induction clauses with
  | nil => exact ⟨[], rfl, .nil⟩
  | cons c clauses ih =>
    obtain ⟨key, v⟩ := c
    obtain ⟨encs, hencs, hrest⟩ := ih (fun c hc => hclause c (List.mem_cons_of_mem _ hc))
      fun k bs hmem => hbodies k bs (List.mem_cons_of_mem _ hmem)
    obtain ⟨enc, henc, halike⟩ : ∃ enc, (if isLogical key then
        (Encoding.alternatives .storage v).map fun bs => (key, bs)
        else Encoding.clause .storage key v) = .ok enc ∧
        EntryAlike search columns fields enc (key, v) := by
      rcases hclause (key, v) List.mem_cons_self with ⟨hname, pointers, hv⟩ | ⟨hlogical, bodies, hv⟩
      · rw [if_neg (Bool.eq_false_iff.mp (Encoding.not_logical_of_lead hname.operator))]
        exact clause_encode search hshown hnodup hname hv
      · obtain rfl : v = .list bodies := hv
        obtain ⟨bs, hbs, halike⟩ := alternatives_encode search hlogical
          (hbodies key bodies List.mem_cons_self hlogical)
        refine ⟨(key, bs), ?_, halike⟩
        rw [if_pos hlogical, hbs]
        rfl
    refine ⟨enc :: encs, ?_, .cons halike hrest⟩
    rw [List.map_cons, Encoding.matchEntries, hencs]
    show ((if isLogical key then (Encoding.alternatives .storage v).map fun bs => (key, bs)
      else Encoding.clause .storage key v) >>= _) = _
    rw [henc]
    rfl

theorem names_of_entryAlike {encs clauses : List (String × Value)}
    (h : List.Forall₂ (EntryAlike search columns fields) encs clauses) :
    (Assoc.keys encs).map ofStorage = Assoc.keys clauses := by
  induction h with
  | nil => rfl
  | cons hhead _ ih => rw [Assoc.keys_cons, List.map_cons, hhead.1, ih, Assoc.keys_cons]

theorem selects_of_entryAlike {encs clauses : List (String × Value)}
    (h : List.Forall₂ (EntryAlike search columns fields) encs clauses) :
    selects search (.object columns) (.object encs) =
      selects search (.object fields) (.object clauses) := by
  rw [selects_object, selects_object]
  induction h with
  | nil => rfl
  | cons hhead _ ih =>
    rw [List.all_cons, List.all_cons, ih]
    exact congrArg (· && _) hhead.2

/-- By induction on the body: its clauses are encoded one by one, under names that the
    clauses' own names are decoded from. -/
theorem body_encode (hshown : ShownAll columns fields) (hnodup : (Assoc.keys fields).Nodup)
    {m : Value} (hm : IsBody m) : Encodes search columns fields m := by
  induction hm with
  | @mk clauses hclauses hclause _ ih =>
    obtain ⟨encs, hencs, halike⟩ := clauses_encode search hshown hnodup hclause ih
    have hpairs : Assoc.ofPairs encs = encs := by
      refine Assoc.ofPairs_of_nodup (List.Nodup.of_map ofStorage ?_)
      rw [names_of_entryAlike search halike]
      exact hclauses
    refine ⟨.object encs, ?_, selects_of_entryAlike search halike⟩
    rw [Value.object, Encoding.matchBody, hencs]
    exact congrArg (Except.ok ∘ Value.object) hpairs

/-- The encoded body selects a stored document exactly when the body selects the wire form of
    the document. -/
theorem encoded_selects_iff {m : Value} (hcolumns : IsStored columns) (hm : IsBody m) :
    ∃ enc shown, Encoding.matchBody .storage m = .ok enc ∧
      Document.toWire (.object columns) .null = .ok shown ∧
      (selects search (.object columns) enc = true ↔ selects search shown m = true) := by
  obtain ⟨fields, hshown, hwire⟩ := toWire_stored hcolumns
  have hnodup : (Assoc.keys fields).Nodup := by
    rw [hshown.keys]
    exact hcolumns.names
  obtain ⟨enc, henc, hselects⟩ := body_encode search hshown hnodup hm
  exact ⟨enc, .object fields, henc, hwire, by rw [hselects]⟩

/-- A document with a pointer and a date, and a body that asks for both. -/
theorem encoded_selects_iff_pointer :
    let author := Pointer.mk "User" "u1"
    let created : DateTime := ⟨⟨2024, 2, 29⟩, 10, 30, 0, 500000, some 0⟩
    let columns := [("_id", Value.text "g1"), ("_created_at", .datetime created),
      ("_p_author", .text author.compact), ("plays", .int 3)]
    let m := Value.object [("$or", .list [.object [("author", author.toWire)],
      .object [("createdAt", .object [("$ne", Wire.taggedDate (.text created.wireText))])]])]
    IsStored columns ∧ IsBody m ∧ ∃ enc shown, Encoding.matchBody .storage m = .ok enc ∧
      Document.toWire (.object columns) .null = .ok shown ∧
      (selects (fun _ _ _ => false) (.object columns) enc = true ↔
        selects (fun _ _ _ => false) shown m = true) := by
  intro author created columns m
  have hclass : '$' ∉ author.className.toList := by decide
  have hcolumns : IsStored columns := by
    refine ⟨fun c hc => ?_, by decide⟩
    simp only [columns, List.mem_cons, List.not_mem_nil, or_false] at hc
    rcases hc with rfl | rfl | rfl | rfl
    · exact .id rfl
    · exact .created ⟨by decide, rfl, by decide, by decide⟩
    · exact .pointer "author" hclass
    · exact .plain ⟨by decide, by decide, by decide⟩ (by decide) (.int 3)
  have hauthor : IsBody (.object [("author", author.toWire)]) := by
    refine .mk (by decide) (fun c hc => ?_) fun key bodies hmem _ => ?_
    · obtain rfl := List.mem_singleton.mp hc
      exact .inl ⟨⟨by decide, by decide, by decide⟩, true,
        .operand (.pointer ⟨by decide, by decide⟩ hclass)⟩
    · cases List.mem_singleton.mp hmem
  have hcreated : IsBody (.object [("createdAt",
      .object [("$ne", Wire.taggedDate (.text created.wireText))])]) := by
    refine .mk (by decide) (fun c hc => ?_) fun key bodies hmem _ => ?_
    · obtain rfl := List.mem_singleton.mp hc
      refine .inl ⟨⟨by decide, by decide, by decide⟩, false, .operators (by decide) fun o ho => ?_⟩
      obtain rfl := List.mem_singleton.mp ho
      exact .notEqual (.date (by decide) (by decide))
    · cases List.mem_singleton.mp hmem
  have hm : IsBody m := by
    refine .mk (by decide) (fun c hc => ?_) fun key bodies hmem _ => ?_
    · obtain rfl := List.mem_singleton.mp hc
      exact .inr ⟨by decide, _, rfl⟩
    · obtain ⟨_, hbodies⟩ := Prod.mk.inj (List.mem_singleton.mp hmem)
      obtain rfl := Value.list.inj hbodies
      intro b hb
      rcases List.mem_pair.mp hb with rfl | rfl
      · exact hauthor
      · exact hcreated
  exact ⟨hcolumns, hm, encoded_selects_iff (fun _ _ _ => false) hcolumns hm⟩

end DocQuery.Selection
