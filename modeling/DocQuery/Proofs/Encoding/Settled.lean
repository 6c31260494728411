-- SUMMARY: An encoded body is its own encoding, and no tagged object is left anywhere in its operands.
import DocQuery.Proofs.Encoding.Data
import DocQuery.Proofs.Filter.Body
import DocQuery.Proofs.Selection
import DocQuery.Proofs.Wire.Tagged

/-!
# Settled bodies

What is encoded for a target is settled: it holds no pointer and no tagged object, and for
the server no date, at any depth. The encoder finds nothing to do in it, neither a value to
respell nor a field to rename, so an encoded body is its own encoding.
-/

namespace DocQuery

/-! ## Parts of values -/

/-- A value, and at any depth the items of its lists and the values of its mappings. -/
inductive Value.HasPart (v : Value) : Value → Prop
  | self : HasPart v v
  | item {xs : List Value} {w : Value} (h : HasPart v (.list xs)) (hw : w ∈ xs) : HasPart v w
  | tupleItem {xs : List Value} {w : Value} (h : HasPart v (.tuple xs)) (hw : w ∈ xs) :
    HasPart v w
  | entry {es : List (Value × Value)} {e : Value × Value} (h : HasPart v (.map es))
    (he : e ∈ es) : HasPart v e.2

namespace Encoding

open DocQuery.Filter (AtLogical mem_object)

variable {target : Target}

/-- A value as the encoder leaves it for a target. -/
inductive IsSettled (target : Target) : Value → Prop
  | leaf {v : Value} (hsequence : v.sequence? = none) (hmap : v.entries? = none)
    (hpointer : v.isPointer = false) (hdate : v.isDate = false) : IsSettled target v
  | reading {t : DateTime} (htarget : target = .storage) (hutc : t.offset = some 0) :
    IsSettled target (.datetime t)
  | list {xs : List Value} (h : ∀ x ∈ xs, IsSettled target x) : IsSettled target (.list xs)
  | object {fields : List (String × Value)} (hnodup : (Assoc.keys fields).Nodup)
    (hpointer : (Value.object fields).isTagged "Pointer" = false)
    (hdate : (Value.object fields).isTagged "Date" = false)
    (h : ∀ f ∈ fields, IsSettled target f.2) : IsSettled target (.object fields)

theorem IsSettled.text (s : String) : IsSettled target (.text s) :=
  .leaf rfl rfl rfl rfl

theorem IsSettled.ofPoints (ps : List Text.CodePoint) : IsSettled target (.ofPoints ps) := by
  unfold Value.ofPoints
  split
  · exact .leaf rfl rfl rfl rfl
  · exact .text _

theorem IsSettled.isPointer {v : Value} (h : IsSettled target v) : v.isPointer = false := by
  cases h with
  | leaf _ _ hpointer _ => exact hpointer
  | reading _ _ => rfl
  | list _ => rfl
  | object _ hpointer _ _ => exact hpointer

theorem IsSettled.isTagged_date {v : Value} (h : IsSettled target v) :
    v.isTagged "Date" = false := by
  cases h with
  | leaf _ hmap _ _ =>
    cases v with
    | map es => cases hmap
    | _ => rfl
  | reading _ _ => rfl
  | list _ => rfl
  | object _ _ hdate _ => exact hdate

theorem IsSettled.isDate_remote {v : Value} (h : IsSettled .remote v) : v.isDate = false := by
  cases h with
  | leaf _ _ _ hdate => exact hdate
  | reading htarget _ => cases htarget
  | list _ => rfl
  | object _ _ hdate _ => exact hdate

/-- The parts of a settled value are settled. -/
theorem IsSettled.part {v w : Value} (h : IsSettled target v) (hw : v.HasPart w) :
    IsSettled target w := by
  induction hw with
  | self => exact h
  | item _ hw ih =>
    cases ih with
    | leaf hsequence _ _ _ => cases hsequence
    | list hitems => exact hitems _ hw
  | tupleItem _ _ ih =>
    cases ih with
    | leaf hsequence _ _ _ => cases hsequence
  | @entry es e _ he ih =>
    generalize hv : Value.map es = v at ih
    cases ih with
    | leaf _ hmap _ _ =>
      subst hv
      cases hmap
    | object _ _ _ hfields =>
      cases hv
      obtain ⟨f, hf, rfl⟩ := List.mem_map.mp he
      exact hfields f hf
    | _ => cases hv

/-! ## Mappings that are no tagged objects -/

theorem operatorOperand_of_not_membership {op : String} (h : isMembership op = false) (v : Value) :
    operatorOperand target op v = value target v := by
  rw [operatorOperand, h]

/-- Without operators that take lists, an operand is encoded as a value. -/
theorem operand_eq_value {es : List (Value × Value)}
    (h : ∀ e ∈ es, isMembership e.1.keyText = false) :
    operand target (.map es) = value target (.map es) := by
  cases htagged : (Value.map es).isPointer || (Value.map es).isDate with
  | true => rw [operand, if_pos htagged]
  | false =>
    obtain ⟨hpointer, hdate⟩ := Bool.or_eq_false_iff.mp htagged
    rw [operand_map hpointer hdate, value_map hpointer hdate, mapM_congr fun e he => by
      rw [operatorOperand_of_not_membership (h e he)]]

/-- Entries under texts as keys, of which each value comes to another. -/
theorem mapM_object (step : String → Value → Except Error Value)
    {fields fields' : List (String × Value)}
    (h : List.Forall₂ (fun f f' => f.1 = f'.1 ∧ step f.1 f.2 = .ok f'.2) fields fields') :
    ((fields.map fun (k, v) => (Value.text k, v)).mapM fun e =>
      (step e.1.keyText e.2).map fun w => (e.1.keyText, w)) = .ok fields' := by
  refine mapM_eq_ok_iff.mpr (List.forall₂_map_left_iff.mpr (h.imp ?_))
  rintro ⟨k, v⟩ ⟨k', w⟩ ⟨rfl, hw⟩
  have hstep : step (Value.text k).keyText v = .ok w := hw
  rw [hstep]
  rfl

/-- Entries of which each value comes to itself. -/
theorem mapM_object_same (step : String → Value → Except Error Value)
    {fields : List (String × Value)} (h : ∀ f ∈ fields, step f.1 f.2 = .ok f.2) :
    ((fields.map fun (k, v) => (Value.text k, v)).mapM fun e =>
      (step e.1.keyText e.2).map fun w => (e.1.keyText, w)) = .ok fields :=
  mapM_object step (List.forall₂_same.mpr fun f hf => ⟨rfl, h f hf⟩)

/-! ## Nothing to do in a settled value -/

theorem value_of_isSettled {v : Value} (h : IsSettled target v) : value target v = .ok v := by
  induction h with
  | @leaf v hsequence hmap hpointer hdate =>
    cases v with
    | list xs => cases hsequence
    | tuple xs => cases hsequence
    | map es => cases hmap
    | pointer p => cases hpointer
    | date d => cases hdate
    | datetime t => cases hdate
    | _ => rfl
  | @reading t htarget hutc =>
    subst htarget
    show (DateTime.ofValue (.datetime t)).map Value.datetime = _
    rw [DateTime.ofValue, DateTime.toUtc_of_offset hutc]
    rfl
  | @list xs _ ih =>
    show (items target xs).map Value.list = _
    have hitems : items target xs = .ok xs := by
      rw [items_eq_mapM]
      exact mapM_eq_ok_iff.mpr (List.forall₂_same.mpr ih)
    rw [hitems]
    rfl
  | @object fields hnodup hpointer hdate _ ih =>
    rw [Value.object, value_map hpointer hdate, mapM_object_same (fun _ => value target) ih]
    exact congrArg (Except.ok ∘ Value.object) (Assoc.ofPairs_of_nodup hnodup)

theorem commonClass?_of_isSettled {xs : List Value} (h : ∀ x ∈ xs, IsSettled target x) :
    commonClass? xs = .ok none := by
  have hnone : xs.find? Value.isPointer = none := by
    rw [List.find?_eq_none, ← List.any_eq_false]
    exact hasPointerAtTop_list fun x hx => (h x hx).isPointer
  rw [commonClass?, hnone]

theorem operatorOperand_of_isSettled {v : Value} (h : IsSettled target v) (op : String) :
    operatorOperand target op v = .ok v := by
  unfold operatorOperand
  split
  · rename_i xs _ hsequence
    cases h with
    | leaf hnone _ _ _ =>
      rw [hnone] at hsequence
      cases hsequence
    | list hitems =>
      cases hsequence
      -- without a pointer among them, no item takes a class
      have hmembers : xs.mapM (member target none) = .ok xs :=
        mapM_eq_ok_iff.mpr (List.forall₂_same.mpr fun x hx => value_of_isSettled (hitems x hx))
      rw [membership, commonClass?_of_isSettled hitems]
      show (xs.mapM (member target none)).map Value.list = _
      rw [hmembers]
      rfl
    | _ => cases hsequence
  · exact value_of_isSettled h

theorem operand_of_isSettled {v : Value} (h : IsSettled target v) : operand target v = .ok v := by
  cases h with
  | @object fields hnodup hpointer hdate hfields =>
    rw [Value.object, operand_map hpointer hdate, mapM_object_same (operatorOperand target)
      fun f hf => operatorOperand_of_isSettled (hfields f hf) f.1]
    exact congrArg (Except.ok ∘ Value.object) (Assoc.ofPairs_of_nodup hnodup)
  | leaf hsequence hmap hpointer hdate =>
    have hvalue : value target v = .ok v :=
      value_of_isSettled (.leaf hsequence hmap hpointer hdate)
    cases v with
    | map es => cases hmap
    | _ => exact hvalue
  | reading htarget hutc => exact value_of_isSettled (.reading htarget hutc)
  | list hitems => exact value_of_isSettled (.list hitems)

/-! ## Encoded values are settled -/

theorem isSettled_pointer {v w : Value} (h : pointer v = .ok w) : IsSettled target w := by
  obtain ⟨p?, _, h⟩ := exists_of_bind_eq_ok h
  cases p? with
  | none => cases h
  | some p =>
    cases h
    exact .text _

theorem isSettled_date {v w : Value} (h : date target v = .ok w) : IsSettled target w := by
  cases target with
  | remote =>
    obtain ⟨s, _, rfl⟩ := exists_of_map_eq_ok h
    exact .text s
  | storage =>
    obtain ⟨t, ht, rfl⟩ := exists_of_map_eq_ok h
    exact .reading rfl (DateTime.offset_of_ofValue ht)

/-- The name of a type is no compact text, no ISO text and no container, so it is encoded
    from itself only. -/
theorem text?_of_value {v w : Value} (h : value target v = .ok w) {type : String}
    (hdollar : '$' ∉ type.toList) (hhyphen : '-' ∉ type.toList) (hw : w.text? = some type) :
    v.text? = some type := by
  have hcompact : ∀ {u : Value}, pointer u ≠ .ok w := by
    intro u hu
    obtain ⟨p?, _, hu⟩ := exists_of_bind_eq_ok hu
    cases p? with
    | none => cases hu
    | some p =>
      cases hu
      obtain rfl := Option.some.inj hw
      exact hdollar (by simp [Pointer.compact])
  have hiso : ∀ {u : Value}, date target u ≠ .ok w := by
    intro u hu
    cases target with
    | remote =>
      obtain ⟨s, hs, rfl⟩ := exists_of_map_eq_ok hu
      obtain ⟨t, _, rfl⟩ := exists_of_map_eq_ok hs
      obtain rfl := Option.some.inj hw
      exact hhyphen (by simp [DateTime.wireText])
    | storage =>
      obtain ⟨t, _, rfl⟩ := exists_of_map_eq_ok hu
      cases hw
  cases v with
  | pointer p => exact absurd h (hcompact (u := .pointer p))
  | date d => exact absurd h hiso
  | datetime t => exact absurd h hiso
  | map es =>
    rw [value] at h
    split at h
    · exact absurd h hcompact
    · split at h
      · exact absurd h hiso
      · obtain ⟨fields, _, rfl⟩ := exists_of_map_eq_ok h
        cases hw
  | list xs =>
    obtain ⟨ys, _, rfl⟩ := exists_of_map_eq_ok h
    cases hw
  | tuple xs =>
    obtain ⟨ys, _, rfl⟩ := exists_of_map_eq_ok h
    cases hw
  | _ =>
    cases h
    exact hw

/-- A mapping that is no tagged object becomes none when its values are encoded. -/
theorem not_isTagged_encoded {es : List (Value × Value)} {fields : List (String × Value)}
    {R : String → Value → Value → Prop}
    (hfields : List.Forall₂ (fun e f => e.1.keyText = f.1 ∧ R f.1 e.2 f.2) es fields)
    (hR : ∀ v w, R "__type" v w → value target v = .ok w) {type : String}
    (hdollar : '$' ∉ type.toList) (hhyphen : '-' ∉ type.toList)
    (h : (Value.map es).isTagged type = false) :
    (Value.object (Assoc.ofPairs fields)).isTagged type = false := by
  have hsame : List.Forall₂ (fun e f => e.1 = f.1 ∧ R e.1 e.2 f.2)
      (Value.textEntries es) fields := by
    refine List.forall₂_map_left_iff.mpr (hfields.imp ?_)
    rintro ⟨k, v⟩ ⟨name, w⟩ ⟨hkey, hvw⟩
    exact ⟨hkey, by rwa [← hkey] at hvw⟩
  have hfound := Assoc.find?_forall₂ R (Assoc.ofPairs_forall₂_keyed R hsame) "__type"
  rw [Bool.eq_false_iff] at h ⊢
  intro htagged
  refine h (Value.isTagged_map.mpr ?_)
  obtain ⟨w, hw, htype⟩ := Value.isTagged_map.mp htagged
  rw [Value.fields_object, Assoc.ofPairs_of_nodup (Assoc.nodup_keys_ofPairs fields)] at hw
  rw [hw] at hfound
  rw [Value.fields]
  cases hv : Assoc.find? "__type" (Assoc.ofPairs (Value.textEntries es)) with
  | none =>
    rw [hv] at hfound
    cases hfound
  | some v =>
    rw [hv] at hfound
    cases hfound with
    | some hvw => exact ⟨v, rfl, text?_of_value (hR v w hvw) hdollar hhyphen htype⟩

/-- Encoded entries of a mapping that is no tagged object. -/
theorem isSettled_object {es : List (Value × Value)} {fields : List (String × Value)}
    {R : String → Value → Value → Prop}
    (hfields : List.Forall₂ (fun e f => e.1.keyText = f.1 ∧ R f.1 e.2 f.2) es fields)
    (hR : ∀ v w, R "__type" v w → value target v = .ok w)
    (hpointer : (Value.map es).isPointer = false) (hdate : (Value.map es).isDate = false)
    (h : ∀ f ∈ fields, IsSettled target f.2) :
    IsSettled target (.object (Assoc.ofPairs fields)) :=
  .object (Assoc.nodup_keys_ofPairs fields)
    (not_isTagged_encoded hfields hR (by decide) (by decide) hpointer)
    (not_isTagged_encoded hfields hR (by decide) (by decide) hdate)
    (Assoc.forall_mem_ofPairs h)

mutual

theorem isSettled_value : ∀ v w : Value, value target v = .ok w → IsSettled target w
  | .pointer p, w, h => by
    cases h
    exact .text _
  | .date d, w, h => isSettled_date (v := .date d) h
  | .datetime t, w, h => isSettled_date (v := .datetime t) h
  | .map es, w, h => by
    rw [value] at h
    split at h
    · exact isSettled_pointer h
    · rename_i hpointer
      split at h
      · exact isSettled_date h
      · rename_i hdate
        obtain ⟨fields, hfields, rfl⟩ := exists_of_map_eq_ok h
        obtain ⟨hrelated, hsettled⟩ := isSettled_entries es fields hfields
        exact isSettled_object (R := fun _ v w => value target v = .ok w) hrelated
          (fun _ _ h => h) (Bool.eq_false_iff.mpr hpointer) (Bool.eq_false_iff.mpr hdate) hsettled
  | .list xs, w, h => by
    obtain ⟨ys, hys, rfl⟩ := exists_of_map_eq_ok h
    exact .list (isSettled_items xs ys hys)
  | .tuple xs, w, h => by
    obtain ⟨ys, hys, rfl⟩ := exists_of_map_eq_ok h
    exact .list (isSettled_items xs ys hys)
  | .null, w, h | .bool _, w, h | .int _, w, h | .float _, w, h | .text _, w, h
  | .brokenText _, w, h | .tagKey _, w, h | .set _ _, w, h | .bytes _, w, h
  | .objectId _, w, h | .regex _, w, h | .order _, w, h => by
    cases h
    exact .leaf rfl rfl rfl rfl

theorem isSettled_items : ∀ xs ys : List Value, items target xs = .ok ys →
    ∀ y ∈ ys, IsSettled target y
  | [], ys, h => by
    cases h
    exact List.forall_mem_nil _
  | x :: xs, ys, h => by
    obtain ⟨y, hy, h⟩ := exists_of_bind_eq_ok h
    obtain ⟨rest, hrest, h⟩ := exists_of_bind_eq_ok h
    cases h
    exact List.forall_mem_cons.mpr ⟨isSettled_value x y hy, isSettled_items xs rest hrest⟩

theorem isSettled_entries : ∀ (es : List (Value × Value)) (fields : List (String × Value)),
    entries target es = .ok fields →
    List.Forall₂ (fun e f => e.1.keyText = f.1 ∧ value target e.2 = .ok f.2) es fields ∧
      ∀ f ∈ fields, IsSettled target f.2
  | [], fields, h => by
    cases h
    exact ⟨.nil, List.forall_mem_nil _⟩
  | (k, v) :: es, fields, h => by
    obtain ⟨w, hw, h⟩ := exists_of_bind_eq_ok h
    obtain ⟨rest, hrest, h⟩ := exists_of_bind_eq_ok h
    cases h
    obtain ⟨hrelated, hsettled⟩ := isSettled_entries es rest hrest
    exact ⟨.cons ⟨rfl, hw⟩ hrelated,
      List.forall_mem_cons.mpr ⟨isSettled_value v w hw, hsettled⟩⟩

end

/-! ## Encoded operands are settled -/

theorem isSettled_member {common : Option String} {x w : Value}
    (h : member target common x = .ok w) : IsSettled target w := by
  unfold member at h
  split at h
  · cases h
    exact .ofPoints _
  · split at h
    · split at h
      · exact isSettled_value _ _ h
      · cases h
        exact .text _
    · exact isSettled_value _ _ h
  · exact isSettled_value _ _ h

theorem isSettled_operatorOperand {op : String} {v w : Value}
    (h : operatorOperand target op v = .ok w) : IsSettled target w := by
  unfold operatorOperand at h
  split at h
  · obtain ⟨common, _, h⟩ := exists_of_bind_eq_ok h
    obtain ⟨ys, hys, rfl⟩ := exists_of_map_eq_ok h
    exact .list (forall_mem_of_mapM_eq_ok hys fun x _ y hy => isSettled_member hy)
  · exact isSettled_value v w h

theorem isSettled_operand {v w : Value} (h : operand target v = .ok w) : IsSettled target w := by
  cases v with
  | map es =>
    by_cases htagged : ((Value.map es).isPointer || (Value.map es).isDate) = true
    · rw [operand, if_pos htagged] at h
      exact isSettled_value _ _ h
    · obtain ⟨hpointer, hdate⟩ := Bool.or_eq_false_iff.mp (Bool.eq_false_iff.mpr htagged)
      rw [operand_map hpointer hdate] at h
      obtain ⟨fields, hfields, rfl⟩ := exists_of_map_eq_ok h
      have hrelated : List.Forall₂ (fun e f => e.1.keyText = f.1 ∧
          operatorOperand target f.1 e.2 = .ok f.2) es fields := by
        refine (mapM_eq_ok_iff.mp hfields).imp fun e f hf => ?_
        obtain ⟨y, hy, rfl⟩ := exists_of_map_eq_ok hf
        exact ⟨rfl, hy⟩
      refine isSettled_object (R := fun op v w => operatorOperand target op v = .ok w) hrelated
        (fun _ _ h => h) hpointer hdate ?_
      exact forall_mem_of_forall₂ hrelated fun e f hf => isSettled_operatorOperand hf.2
  | _ => exact isSettled_value _ _ h

/-! ## Clauses -/

theorem hasPointerAtTop_of_isSettled {v : Value} (h : IsSettled target v) :
    hasPointerAtTop v = false := by
  rw [hasPointerAtTop, h.isPointer, Bool.false_or]
  cases h with
  | leaf hsequence _ _ _ =>
    rw [hsequence]
    rfl
  | reading _ _ => rfl
  | list hitems => exact hasPointerAtTop_list fun x hx => (hitems x hx).isPointer
  | object _ _ _ _ => rfl

/-- A settled operand is compared with a field, never with its pointer column. -/
theorem holdsPointer_of_isSettled {v : Value} (h : IsSettled target v) :
    holdsPointer v = false := by
  cases h with
  | leaf _ hmap hpointer _ =>
    rw [holdsPointer, hpointer, hmap, Option.any_none, Bool.and_false, Bool.or_false]
  | reading _ _ => rfl
  | list _ => rfl
  | object _ hpointer _ hfields =>
    refine holdsPointer_map hpointer (List.forall_mem_map.mpr fun f hf => ?_)
    exact hasPointerAtTop_of_isSettled (hfields f hf)

/-- The name that a clause got is kept when its settled operand is encoded again. -/
theorem clauseName_clauseName (key : String) (v : Value) {w : Value} (hw : IsSettled target w) :
    clauseName target (clauseName target key v) w = clauseName target key v := by
  have hplain := holdsPointer_of_isSettled hw
  cases target with
  | remote => simp only [clauseName, hplain, Bool.false_eq_true, if_false]
  | storage =>
    simp only [clauseName, hplain, Bool.false_eq_true, if_false]
    split
    · exact FieldName.toStorage_of_not_mem (FieldName.pointerColumn_not_mem_systemNames key)
    · exact FieldName.toStorage_toStorage key

theorem head?_clauseName {key : String} (h : key.toList.head? ≠ some '$') (v : Value) :
    (clauseName target key v).toList.head? ≠ some '$' := by
  unfold clauseName
  split
  · obtain ⟨cs, hcs⟩ := FieldName.exists_pointerColumn key
    rw [hcs]
    simp
  · cases target with
    | remote => exact h
    | storage => exact FieldName.operator_toStorage h

/-- A clause as the encoder leaves it: its operand is settled, and its name is kept. -/
structure IsSettledClause (target : Target) (c : String × Value) : Prop where
  operand : IsSettled target c.2
  plain : isLogical c.1 = false
  fixed : clause target c.1 c.2 = .ok c

theorem isSettledClause_clause {key : String} {v : Value} {c : String × Value}
    (hkey : isLogical key = false) (h : clause target key v = .ok c) :
    IsSettledClause target c := by
  unfold clause at h
  split at h
  · rename_i hlead
    obtain ⟨w, hw, rfl⟩ := exists_of_map_eq_ok h
    have hsettled := isSettled_value _ _ hw
    refine ⟨hsettled, hkey, ?_⟩
    rw [clause, if_pos hlead, value_of_isSettled hsettled]
    rfl
  · rename_i hlead
    obtain ⟨w, hw, rfl⟩ := exists_of_map_eq_ok h
    have hsettled := isSettled_operand hw
    have hname := clauseName_clauseName key v hsettled
    have hlead' : (clauseName target key v).toList.head? ≠ some '$' := head?_clauseName hlead v
    refine ⟨hsettled, not_logical_of_lead hlead', ?_⟩
    rw [clause, if_neg hlead', operand_of_isSettled hsettled]
    exact congrArg (fun name => Except.ok (name, w)) hname

/-! ## Bodies -/

/-- A match body as the encoder leaves it. -/
inductive IsSettledBody (target : Target) : Value → Prop
  | mk {clauses : List (String × Value)} (hnodup : (Assoc.keys clauses).Nodup)
    (hclause : ∀ c ∈ clauses, IsSettledClause target c ∨
      isLogical c.1 = true ∧ ∃ bodies, c.2 = .list bodies)
    (hbodies : ∀ key bodies, (key, .list bodies) ∈ clauses → isLogical key = true →
      ∀ b ∈ bodies, IsSettledBody target b) : IsSettledBody target (.object clauses)

theorem matchBody_of_isSettledBody {b : Value} (h : IsSettledBody target b) :
    matchBody target b = .ok b := by
  induction h with
  | @mk clauses hnodup hclause _ ih =>
    have hclauses : matchEntries target (clauses.map fun (k, v) => (Value.text k, v)) =
        .ok clauses := by
      rw [matchEntries_eq_mapM]
      refine mapM_eq_ok_iff.mpr (List.forall₂_map_left_iff.mpr (List.forall₂_same.mpr ?_))
      intro c hc
      show (if isLogical c.1 then (alternatives target c.2).map fun bs => (c.1, bs)
        else clause target c.1 c.2) = .ok c
      rcases hclause c hc with hsettled | ⟨hkey, bodies, hlist⟩
      · rw [if_neg (Bool.eq_false_iff.mp hsettled.plain), hsettled.fixed]
      · obtain ⟨key, v⟩ := c
        obtain rfl : v = .list bodies := hlist
        have hbodies : matchBodies target bodies = .ok bodies := by
          rw [matchBodies_eq_mapM]
          exact mapM_eq_ok_iff.mpr (List.forall₂_same.mpr (ih key bodies hc hkey))
        rw [if_pos hkey, alternatives, hbodies]
        rfl
    rw [Value.object, matchBody, hclauses]
    exact congrArg (Except.ok ∘ Value.object) (Assoc.ofPairs_of_nodup hnodup)

/-- Clauses of which each is settled, or a list of settled bodies under a logical key. -/
def AreSettled (target : Target) (clauses : List (String × Value)) : Prop :=
  ∀ c ∈ clauses, IsSettledClause target c ∨
    isLogical c.1 = true ∧ ∃ bodies, c.2 = .list bodies ∧ ∀ b ∈ bodies, IsSettledBody target b

theorem AreSettled.body {clauses : List (String × Value)} (h : AreSettled target clauses) :
    IsSettledBody target (.object (Assoc.ofPairs clauses)) := by
  refine .mk (Assoc.nodup_keys_ofPairs clauses) (fun c hc => ?_) fun key bodies hc hkey => ?_
  · rcases h c (Assoc.mem_of_mem_ofPairs hc) with hsettled | ⟨hkey, bodies, hlist, _⟩
    · exact .inl hsettled
    · exact .inr ⟨hkey, bodies, hlist⟩
  · rcases h _ (Assoc.mem_of_mem_ofPairs hc) with hsettled | ⟨_, bodies', hlist, hbodies⟩
    · rw [hsettled.plain] at hkey
      cases hkey
    · cases hlist
      exact hbodies

theorem isSettled_noBodies {v w : Value} (h : noBodies v = .ok w) : w = .list [] := by
  unfold noBodies at h
  split at h <;> cases h
  rfl

mutual

theorem isSettledBody_matchBody : ∀ m b : Value, matchBody target m = .ok b →
    IsSettledBody target b
  | .map es, b, h => by
    obtain ⟨clauses, hclauses, rfl⟩ := exists_of_map_eq_ok h
    exact (areSettled_matchEntries es clauses hclauses).body
  | .null, _, h | .bool _, _, h | .int _, _, h | .float _, _, h | .text _, _, h
  | .brokenText _, _, h | .tagKey _, _, h | .list _, _, h | .tuple _, _, h | .set _ _, _, h
  | .bytes _, _, h | .date _, _, h | .datetime _, _, h | .pointer _, _, h | .objectId _, _, h
  | .regex _, _, h | .order _, _, h => by cases h

theorem areSettled_matchEntries : ∀ (es : List (Value × Value)) (clauses : List (String × Value)),
    matchEntries target es = .ok clauses → AreSettled target clauses
  | [], clauses, h => by
    cases h
    exact List.forall_mem_nil _
  | (k, v) :: es, clauses, h => by
    obtain ⟨c, hc, h⟩ := exists_of_bind_eq_ok h
    obtain ⟨rest, hrest, h⟩ := exists_of_bind_eq_ok h
    cases h
    refine List.forall_mem_cons.mpr ⟨?_, areSettled_matchEntries es rest hrest⟩
    split at hc
    · rename_i hkey
      obtain ⟨w, hw, rfl⟩ := exists_of_map_eq_ok hc
      exact .inr ⟨hkey, settledBodies_alternatives v w hw⟩
    · rename_i hkey
      exact .inl (isSettledClause_clause (Bool.eq_false_iff.mpr hkey) hc)

theorem settledBodies_alternatives : ∀ v w : Value, alternatives target v = .ok w →
    ∃ bodies, w = .list bodies ∧ ∀ b ∈ bodies, IsSettledBody target b
  | .list xs, w, h => by
    obtain ⟨bodies, hbodies, rfl⟩ := exists_of_map_eq_ok h
    exact ⟨bodies, rfl, settledBodies_matchBodies xs bodies hbodies⟩
  | .tuple xs, w, h => by
    obtain ⟨bodies, hbodies, rfl⟩ := exists_of_map_eq_ok h
    exact ⟨bodies, rfl, settledBodies_matchBodies xs bodies hbodies⟩
  | .null, _, h | .bool _, _, h | .int _, _, h | .float _, _, h | .text _, _, h
  | .brokenText _, _, h | .tagKey _, _, h | .map _, _, h | .set _ _, _, h | .bytes _, _, h
  | .date _, _, h | .datetime _, _, h | .pointer _, _, h | .objectId _, _, h | .regex _, _, h
  | .order _, _, h => by
    unfold alternatives at h
    exact ⟨[], isSettled_noBodies h, List.forall_mem_nil _⟩

theorem settledBodies_matchBodies : ∀ xs bodies : List Value,
    matchBodies target xs = .ok bodies → ∀ b ∈ bodies, IsSettledBody target b
  | [], bodies, h => by
    cases h
    exact List.forall_mem_nil _
  | x :: xs, bodies, h => by
    obtain ⟨b, hb, h⟩ := exists_of_bind_eq_ok h
    obtain ⟨rest, hrest, h⟩ := exists_of_bind_eq_ok h
    cases h
    exact List.forall_mem_cons.mpr
      ⟨isSettledBody_matchBody x b hb, settledBodies_matchBodies xs rest hrest⟩

end

/-- Each body inside a settled one is settled. -/
theorem IsSettledBody.inside {b c : Value} (h : IsSettledBody target b) (hc : AtLogical b c) :
    IsSettledBody target c := by
  induction hc with
  | self => exact h
  | @inside es key xs w _ hkey hlist hw ih =>
    generalize hb : Value.map es = v at ih
    cases ih with
    | mk _ _ hbodies =>
      cases hb
      exact hbodies key xs (mem_object hlist) hkey w hw

/-- What a body is encoded to is its own encoding. In the operands of its fields, and of the
    fields of the bodies inside it, there is no pointer and no tagged object at any depth, and
    no date if it is for the server. -/
theorem matchBody_settles {m e : Value} (h : matchBody target m = .ok e) :
    matchBody target e = .ok e ∧
      ∀ es, AtLogical e (.map es) → ∀ c ∈ es, isLogical c.1.keyText = false →
        ∀ part, c.2.HasPart part → part.isPointer = false ∧ part.isTagged "Date" = false ∧
          (target = .remote → part.isDate = false) := by
  have hbody := isSettledBody_matchBody m e h
  refine ⟨matchBody_of_isSettledBody hbody, fun es hes c hc hkey part hpart => ?_⟩
  have hinside := hbody.inside hes
  generalize hb : Value.map es = b at hinside
  cases hinside with
  | mk _ hclause _ =>
    cases hb
    obtain ⟨f, hf, rfl⟩ := List.mem_map.mp hc
    have hplain : isLogical f.1 = false := hkey
    rcases hclause f hf with hsettled | ⟨hlogical, _⟩
    · have hsettledPart := hsettled.operand.part hpart
      refine ⟨hsettledPart.isPointer, hsettledPart.isTagged_date, ?_⟩
      rintro rfl
      exact hsettledPart.isDate_remote
    · rw [hplain] at hlogical
      cases hlogical

/-- A pointer beside a plain id, and dates in nested lists and mappings. -/
theorem matchBody_settles_nested :
    let m := Value.object [("artist", .object [("$in", .list
        [(Pointer.mk "Artist" "a1").toWire, .text "a2"])]),
      ("$or", .list [.object [("createdAt", .object [("$gte", .date ⟨2024, 2, 29⟩)])],
        .object [("tags", .list [.object [("since",
          Wire.taggedDate (.text "2023-09-15T12:00:00.000Z"))]])]])]
    let e := Value.object [("_p_artist", .object [("$in", .list
        [.text "Artist$a1", .text "Artist$a2"])]),
      ("$or", .list [.object [("createdAt", .object [("$gte", .text "2024-02-29T00:00:00.000Z")])],
        .object [("tags", .list [.object [("since", .text "2023-09-15T12:00:00.000Z")]])]])]
    matchBody .remote m = .ok e ∧ matchBody .remote e = .ok e ∧
      ∀ es, AtLogical e (.map es) → ∀ c ∈ es, isLogical c.1.keyText = false →
        ∀ part, c.2.HasPart part → part.isPointer = false ∧ part.isDate = false := by
  intro m e
  have hm : matchBody .remote m = .ok e := by
    rfl
  obtain ⟨hagain, hparts⟩ := matchBody_settles hm
  refine ⟨hm, hagain, fun es hes c hc hkey part hpart => ?_⟩
  obtain ⟨hpointer, _, hdate⟩ := hparts es hes c hc hkey part hpart
  exact ⟨hpointer, hdate rfl⟩

end Encoding

end DocQuery
