-- SUMMARY: The encodings for the two targets differ in the spelling of dates and field names only.
import DocQuery.Encoding.Match
import DocQuery.Proofs.Assoc
import DocQuery.Proofs.Except
import DocQuery.Proofs.Value.WellFormed
import DocQuery.Proofs.Wire.Date

/-!
# The two targets

A match body is encoded for both targets or for neither, with the same error. When the
readings in the encoding for the store are written as ISO texts, and the fields in the
encoding for the server are named by their columns, the two are the same.
-/

namespace DocQuery.Encoding

/-! ## Readings as ISO texts -/

mutual

/-- The value with every reading in its mappings and lists written as an ISO text. -/
def isoDates : Value → Except Error Value
  | .datetime t => (Wire.isoText (.datetime t)).map .text
  | .map es => (isoEntries es).map .map
  | .list xs => (isoItems xs).map .list
  | v => .ok v

/-- The entries with their values so written. -/
def isoEntries : List (Value × Value) → Except Error (List (Value × Value))
  | [] => .ok []
  | (k, v) :: es => do
    let w ← isoDates v
    let ws ← isoEntries es
    .ok ((k, w) :: ws)

/-- The items so written. -/
def isoItems : List Value → Except Error (List Value)
  | [] => .ok []
  | x :: xs => do
    let y ← isoDates x
    let ys ← isoItems xs
    .ok (y :: ys)

end

/-- `w` is `v` with ISO texts for readings. -/
def SameButDates (v w : Value) : Prop :=
  isoDates v = .ok w

theorem isoItems_of_forall₂ {xs ys : List Value} (h : List.Forall₂ SameButDates xs ys) :
    isoItems xs = .ok ys := by
  induction h with
  | nil => rfl
  | cons hhead _ ih =>
    rw [isoItems, hhead, ih]
    rfl

theorem sameButDates_list {xs ys : List Value} (h : List.Forall₂ SameButDates xs ys) :
    SameButDates (.list xs) (.list ys) := by
  rw [SameButDates, isoDates, isoItems_of_forall₂ h]
  rfl

/-- Entries with the same keys and values that are the same but for dates. -/
abbrev SameFields (es fs : List (String × Value)) : Prop :=
  List.Forall₂ (fun e f => e.1 = f.1 ∧ SameButDates e.2 f.2) es fs

theorem isoEntries_of_sameFields {es fs : List (String × Value)} (h : SameFields es fs) :
    isoEntries (es.map fun (k, v) => (Value.text k, v)) =
      .ok (fs.map fun (k, v) => (Value.text k, v)) := by
  induction h with
  | nil => rfl
  | @cons e f es fs hhead _ ih =>
    obtain ⟨k, v⟩ := e
    obtain ⟨k', w⟩ := f
    obtain ⟨rfl, hvw⟩ : k = k' ∧ SameButDates v w := hhead
    simp only [List.map_cons]
    rw [isoEntries, hvw, ih]
    rfl

theorem sameButDates_object {es fs : List (String × Value)} (h : SameFields es fs) :
    SameButDates (.object es) (.object fs) := by
  rw [SameButDates, Value.object, isoDates, isoEntries_of_sameFields h]
  rfl

/-- Repeated keys are joined alike. -/
theorem sameButDates_ofPairs {es fs : List (String × Value)} (h : SameFields es fs) :
    SameButDates (.object (Assoc.ofPairs es)) (.object (Assoc.ofPairs fs)) :=
  sameButDates_object (Assoc.ofPairs_forall₂ h)

/-! ## Values -/

theorem date_agree (v : Value) : Agree SameButDates (date .storage v) (date .remote v) := by
  simp only [date, Wire.isoText]
  cases h : DateTime.ofValue v with
  | error e => exact .error e
  | ok t =>
    refine .ok ?_
    have hutc : t.toUtc = .ok t := DateTime.toUtc_of_offset (DateTime.offset_of_ofValue h)
    simp only [SameButDates, isoDates, Wire.isoText, DateTime.ofValue, hutc]
    rfl

/-- The compact text of a pointer is the same for both targets. -/
theorem pointer_agree (v : Value) : Agree SameButDates (pointer v) (pointer v) := by
  refine Agree.refl fun w hw => ?_
  unfold pointer at hw
  cases h : Pointer.ofValue? v with
  | error e =>
    rw [h] at hw
    cases hw
  | ok p? =>
    rw [h] at hw
    cases p? with
    | none => cases hw
    | some p =>
      cases hw
      rfl

mutual

theorem value_agree : ∀ v : Value,
    Agree SameButDates (value .storage v) (value .remote v)
  | .pointer p => .ok rfl
  | .date d => date_agree (.date d)
  | .datetime t => date_agree (.datetime t)
  | .map es => by
    unfold value
    by_cases hpointer : (Value.map es).isPointer = true
    · rw [if_pos hpointer, if_pos hpointer]
      exact pointer_agree (.map es)
    · by_cases hdate : (Value.map es).isDate = true
      · rw [if_neg hpointer, if_neg hpointer, if_pos hdate, if_pos hdate]
        exact date_agree (.map es)
      · rw [if_neg hpointer, if_neg hpointer, if_neg hdate, if_neg hdate]
        exact (entries_agree es).map fun _ _ h => sameButDates_ofPairs h
  | .list xs => by
    unfold value
    exact (items_agree xs).map fun _ _ h => sameButDates_list h
  | .tuple xs => by
    unfold value
    exact (items_agree xs).map fun _ _ h => sameButDates_list h
  | .null | .bool _ | .int _ | .float _ | .text _ | .brokenText _ | .tagKey _ | .set _ _
  | .bytes _ | .objectId _ | .regex _ | .order _ => .ok rfl

theorem items_agree : ∀ xs : List Value,
    Agree (List.Forall₂ SameButDates) (items .storage xs) (items .remote xs)
  | [] => .ok .nil
  | x :: xs => by
    unfold items
    refine (value_agree x).bind fun y z hyz => ?_
    refine (items_agree xs).bind fun ys zs hrest => ?_
    exact .ok (.cons hyz hrest)

theorem entries_agree : ∀ es : List (Value × Value),
    Agree SameFields (entries .storage es) (entries .remote es)
  | [] => .ok .nil
  | (k, v) :: es => by
    unfold entries
    refine (value_agree v).bind fun y z hyz => ?_
    refine (entries_agree es).bind fun ys zs hrest => ?_
    exact .ok (.cons ⟨rfl, hyz⟩ hrest)

end

/-! ## Operands -/

theorem sameButDates_ofPoints (ps : List Text.CodePoint) :
    SameButDates (.ofPoints ps) (.ofPoints ps) := by
  unfold Value.ofPoints
  split <;> rfl

/-- A text that is no compact pointer takes the common class for both targets alike. -/
theorem ofClass_agree (className s : String) {x : Value} :
    Agree SameButDates
      (if (Pointer.ofCompact? s).isSome then value .storage x
        else .ok (.text (className ++ "$" ++ x.display)))
      (if (Pointer.ofCompact? s).isSome then value .remote x
        else .ok (.text (className ++ "$" ++ x.display))) := by
  split
  · exact value_agree x
  · exact .ok rfl

theorem member_agree (common : Option String) (x : Value) :
    Agree SameButDates (member .storage common x) (member .remote common x) := by
  cases common with
  | none => exact value_agree x
  | some className =>
    cases x with
    | brokenText t => exact .ok (sameButDates_ofPoints _)
    | text s => exact ofClass_agree className s
    | tagKey k => exact ofClass_agree className k.text
    | _ => exact value_agree _

theorem membership_agree (xs : List Value) :
    Agree SameButDates (membership .storage xs) (membership .remote xs) := by
  unfold membership
  refine (Agree.refl fun _ _ => rfl : Agree Eq (commonClass? xs) (commonClass? xs)).bind ?_
  rintro common _ rfl
  have hmembers : Agree (List.Forall₂ SameButDates) (xs.mapM (member .storage common))
      (xs.mapM (member .remote common)) :=
    Agree.mapM fun x _ => member_agree common x
  exact hmembers.map fun _ _ h => sameButDates_list h

theorem operatorOperand_agree (op : String) (v : Value) :
    Agree SameButDates (operatorOperand .storage op v) (operatorOperand .remote op v) := by
  unfold operatorOperand
  split
  · exact membership_agree _
  · exact value_agree v

theorem operand_agree (v : Value) :
    Agree SameButDates (operand .storage v) (operand .remote v) := by
  cases v with
  | map es =>
    simp only [operand]
    by_cases htagged : ((Value.map es).isPointer || (Value.map es).isDate) = true
    · rw [if_pos htagged, if_pos htagged]
      exact value_agree (.map es)
    · rw [if_neg htagged, if_neg htagged]
      refine Agree.bind (R := SameFields) (Agree.mapM fun e _ => ?_) fun ys zs h => ?_
      · refine (operatorOperand_agree e.1.keyText e.2).bind fun y z hyz => ?_
        exact .ok ⟨rfl, hyz⟩
      · exact .ok (sameButDates_ofPairs h)
  | _ => exact value_agree _

/-! ## Fields named by their columns -/

mutual

/-- A match body with its fields, and those of the bodies inside, named by their columns. -/
def columns : Value → Value
  | .map es => .object (Assoc.ofPairs (columnEntries es))
  | v => v

/-- The clauses of a match body with their fields so named. -/
def columnEntries : List (Value × Value) → List (String × Value)
  | [] => []
  | (k, v) :: es =>
    (FieldName.toStorage k.keyText, columnValue k.keyText v) :: columnEntries es

/-- What a clause holds: under a key that holds bodies, bodies with their fields so named. -/
def columnValue (key : String) : Value → Value
  | .list xs => if isLogical key then .list (columnBodies xs) else .list xs
  | v => v

/-- Match bodies with their fields so named. -/
def columnBodies : List Value → List Value
  | [] => []
  | x :: xs => columns x :: columnBodies xs

end

theorem columnEntries_object (es : List (String × Value)) :
    columnEntries (es.map fun (k, v) => (Value.text k, v)) =
      Assoc.renamed FieldName.toStorage columnValue es := by
  induction es with
  | nil => rfl
  | cons e es ih =>
    rw [List.map_cons, columnEntries, ih]
    rfl

theorem columns_object (es : List (String × Value)) :
    columns (.object es) =
      .object (Assoc.ofPairs (Assoc.renamed FieldName.toStorage columnValue es)) := by
  rw [Value.object, columns, columnEntries_object]

theorem columnBodies_eq_map (xs : List Value) : columnBodies xs = xs.map columns := by
  induction xs with
  | nil => rfl
  | cons x xs ih => rw [columnBodies, ih, List.map_cons]

theorem columnValue_of_not_logical {key : String} (h : isLogical key = false) (v : Value) :
    columnValue key v = v := by
  cases v <;> simp [columnValue, h]

/-! ## Clauses -/

theorem not_logical_of_lead {key : String} (h : key.toList.head? ≠ some '$') :
    isLogical key = false := by
  cases hlogical : isLogical key with
  | false => rfl
  | true =>
    simp only [isLogical, List.contains_iff_mem, List.mem_cons, List.not_mem_nil, or_false]
      at hlogical
    rcases hlogical with rfl | rfl | rfl <;> exact absurd rfl h

theorem not_membership_of_lead {key : String} (h : key.toList.head? ≠ some '$') :
    isMembership key = false := by
  cases hmembership : isMembership key with
  | false => rfl
  | true =>
    simp only [isMembership, List.contains_iff_mem, List.mem_cons, List.not_mem_nil, or_false]
      at hmembership
    rcases hmembership with rfl | rfl | rfl <;> exact absurd rfl h

theorem lead_of_logical {key : String} (h : isLogical key = true) :
    key.toList.head? = some '$' := by
  by_contra hlead
  rw [not_logical_of_lead hlead] at h
  cases h

/-- A body with one clause is encoded clause by clause. -/
theorem matchBody_single {target : Target} {key : String} (hkey : isLogical key = false)
    (v : Value) : matchBody target (.object [(key, v)]) =
      (clause target key v).map fun c => .object [c] := by
  show (matchEntries target [(.text key, v)]).map _ = _
  simp only [matchEntries, Value.keyText, Value.display, hkey, Bool.false_eq_true, if_false]
  cases clause target key v <;> rfl

/-- A clause for the store is the one for the server with its field named by the column.
    No field but `key` is respelled. -/
structure SameClause (key : String) (f g : String × Value) : Prop where
  name : f.1 = FieldName.toStorage g.1
  operand : SameButDates f.2 (columnValue g.1 g.2)
  source : g.1 = key ∨ g.1 ∉ FieldName.systemNames

theorem clause_agree {key : String} (hkey : isLogical key = false) (v : Value) :
    Agree (SameClause key) (clause .storage key v) (clause .remote key v) := by
  unfold clause
  by_cases hlead : key.toList.head? = some '$'
  · rw [if_pos hlead, if_pos hlead]
    have hself := FieldName.toStorage_of_not_mem (FieldName.operator_not_mem_systemNames hlead)
    refine (value_agree v).map fun x y hxy => ⟨hself.symm, ?_, .inl rfl⟩
    rw [columnValue_of_not_logical hkey]
    exact hxy
  · rw [if_neg hlead, if_neg hlead]
    refine (operand_agree v).map fun x y hxy => ?_
    cases hpointer : holdsPointer v with
    | true =>
      obtain ⟨cs, hcs⟩ := FieldName.exists_pointerColumn key
      have hnot := FieldName.pointerColumn_not_mem_systemNames key
      have hplain : isLogical (FieldName.pointerColumn key) = false := by
        refine not_logical_of_lead ?_
        rw [hcs]
        simp
      refine ⟨?_, ?_, .inr ?_⟩ <;> simp only [clauseName, hpointer, if_true]
      · exact (FieldName.toStorage_of_not_mem hnot).symm
      · rw [columnValue_of_not_logical hplain]
        exact hxy
      · exact hnot
    | false =>
      refine ⟨?_, ?_, .inl ?_⟩ <;> simp only [clauseName, hpointer]
      · rfl
      · exact (columnValue_of_not_logical hkey y).symm ▸ hxy
      · rfl

/-- The clauses for the store are those for the server, and no system name is among them
    more often than among `names`. -/
structure SameClauses (names : List String) (fs gs : List (String × Value)) : Prop where
  clauses : List.Forall₂ (fun f g => f.1 = FieldName.toStorage g.1 ∧
    SameButDates f.2 (columnValue g.1 g.2)) fs gs
  count : ∀ name ∈ FieldName.systemNames, (Assoc.keys gs).count name ≤ names.count name

theorem SameClauses.nil : SameClauses [] [] [] :=
  ⟨.nil, fun _ _ => Nat.le_refl _⟩

theorem SameClauses.cons {key : String} {names : List String} {f g : String × Value}
    {fs gs : List (String × Value)} (hhead : SameClause key f g)
    (htail : SameClauses names fs gs) : SameClauses (key :: names) (f :: fs) (g :: gs) := by
  refine ⟨.cons ⟨hhead.name, hhead.operand⟩ htail.clauses, fun name hname => ?_⟩
  have hle := htail.count name hname
  rw [Assoc.keys_cons, List.count_cons, List.count_cons]
  rcases hhead.source with hkey | hnot
  · rw [hkey]
    omega
  · have hne : (g.1 == name) = false := by
      rw [beq_eq_false_iff_ne]
      rintro rfl
      exact hnot hname
    rw [hne]
    simp only [Bool.false_eq_true, if_false]
    omega

/-- Clauses whose system names are written once are joined to the same body. -/
theorem SameClauses.body {names : List String} {fs gs : List (String × Value)}
    (h : SameClauses names fs gs)
    (hcount : ∀ name ∈ FieldName.systemNames, names.count name ≤ 1) :
    SameButDates (.object (Assoc.ofPairs fs)) (columns (.object (Assoc.ofPairs gs))) := by
  have hinj : ∀ k ∈ Assoc.keys gs, ∀ k' ∈ Assoc.keys gs,
      FieldName.toStorage k = FieldName.toStorage k' → k = k' ∨ (Assoc.keys gs).count k ≤ 1 := by
    intro k _ k' _ heq
    refine (FieldName.toStorage_inj heq).imp_right fun hmem => ?_
    exact Nat.le_trans (h.count k hmem) (hcount k hmem)
  rw [columns_object, Assoc.ofPairs_renamed_ofPairs FieldName.toStorage columnValue hinj]
  refine sameButDates_ofPairs ?_
  exact List.forall₂_map_right_iff.mpr h.clauses

/-! ## Bodies -/

/-- A body for the store is the one for the server with its fields named by their columns. -/
abbrev SameBody (b c : Value) : Prop :=
  SameButDates b (columns c)

theorem sameClause_alternatives {key : String} (hkey : isLogical key = true)
    {bs cs : List Value} (h : List.Forall₂ SameBody bs cs) :
    SameClause key (key, .list bs) (key, .list cs) := by
  have hnot := FieldName.operator_not_mem_systemNames (lead_of_logical hkey)
  refine ⟨(FieldName.toStorage_of_not_mem hnot).symm, ?_, .inl rfl⟩
  simp only [columnValue, hkey, if_true, columnBodies_eq_map]
  exact sameButDates_list (List.forall₂_map_right_iff.mpr h)

/-- What stands for no bodies is the same for both targets. -/
theorem noBodies_agree {key : String} (hkey : isLogical key = true) (v : Value) :
    Agree (fun b c => SameClause key (key, b) (key, c)) (noBodies v) (noBodies v) := by
  unfold noBodies
  split
  · exact .ok (sameClause_alternatives hkey .nil)
  · exact .error _

mutual

theorem matchBody_agree : ∀ m : Value, m.isWellFormed = true →
    Agree SameBody (matchBody .storage m) (matchBody .remote m)
  | .map es, hm => by
    simp only [Value.isWellFormed, Bool.and_eq_true] at hm
    unfold matchBody
    refine (matchEntries_agree es hm.2).map fun fs gs h => h.body fun name hname => ?_
    have hle := Value.count_keyText_le_one hm.1 (fun k hk => ?_) hname
    · rwa [List.map_map] at hle
    · obtain ⟨e, he, rfl⟩ := List.mem_map.mp hk
      exact (Value.haveWellFormed_iff.mp hm.2 e he).1
  | .null, _ | .bool _, _ | .int _, _ | .float _, _ | .text _, _ | .brokenText _, _
  | .tagKey _, _ | .list _, _ | .tuple _, _ | .set _ _, _ | .bytes _, _ | .date _, _
  | .datetime _, _ | .pointer _, _ | .objectId _, _ | .regex _, _ | .order _, _ => .error _

theorem matchEntries_agree : ∀ es : List (Value × Value), Value.haveWellFormed es = true →
    Agree (SameClauses (es.map (Value.keyText ∘ Prod.fst)))
      (matchEntries .storage es) (matchEntries .remote es)
  | [], _ => .ok .nil
  | (k, v) :: es, hes => by
    simp only [Value.haveWellFormed, Bool.and_eq_true] at hes
    unfold matchEntries
    refine Agree.bind (R := SameClause k.keyText) ?_ fun f g hhead => ?_
    · by_cases hlogical : isLogical k.keyText = true
      · rw [if_pos hlogical, if_pos hlogical]
        exact (alternatives_agree hlogical v hes.1.2).map fun _ _ h => h
      · rw [if_neg hlogical, if_neg hlogical]
        exact clause_agree (Bool.eq_false_iff.mpr hlogical) v
    · refine (matchEntries_agree es hes.2).bind fun fs gs htail => ?_
      exact .ok (.cons hhead htail)

theorem alternatives_agree {key : String} (hkey : isLogical key = true) : ∀ v : Value,
    v.isWellFormed = true →
    Agree (fun b c => SameClause key (key, b) (key, c))
      (alternatives .storage v) (alternatives .remote v)
  | .list xs, hv => by
    unfold alternatives
    exact (matchBodies_agree xs hv).map fun _ _ h => sameClause_alternatives hkey h
  | .tuple xs, hv => by
    unfold alternatives
    exact (matchBodies_agree xs hv).map fun _ _ h => sameClause_alternatives hkey h
  | .null, _ | .bool _, _ | .int _, _ | .float _, _ | .text _, _ | .brokenText _, _
  | .tagKey _, _ | .map _, _ | .set _ _, _ | .bytes _, _ | .date _, _ | .datetime _, _
  | .pointer _, _ | .objectId _, _ | .regex _, _ | .order _, _ => by
    unfold alternatives
    exact noBodies_agree hkey _

theorem matchBodies_agree : ∀ xs : List Value, Value.areWellFormed xs = true →
    Agree (List.Forall₂ SameBody) (matchBodies .storage xs) (matchBodies .remote xs)
  | [], _ => .ok .nil
  | x :: xs, hxs => by
    simp only [Value.areWellFormed, Bool.and_eq_true] at hxs
    unfold matchBodies
    refine (matchBody_agree x hxs.1).bind fun b c hbc => ?_
    refine (matchBodies_agree xs hxs.2).bind fun bs cs hrest => ?_
    exact .ok (.cons hbc hrest)

end

/-- A body is encoded for both targets or for neither, with the same error. The two encodings
    are the same but for the spelling of dates and the names of fields. -/
theorem targets_simulate {m : Value} (hm : m.isWellFormed = true) :
    ((∃ s, matchBody .storage m = .ok s) ↔ ∃ r, matchBody .remote m = .ok r) ∧
      (∀ e, matchBody .storage m = .error e ↔ matchBody .remote m = .error e) ∧
      ∀ s r, matchBody .storage m = .ok s → matchBody .remote m = .ok r →
        isoDates s = .ok (columns r) := by
  have hagree := matchBody_agree m hm
  generalize matchBody .storage m = x at hagree ⊢
  generalize matchBody .remote m = y at hagree ⊢
  cases hagree with
  | @ok b c hbody =>
    refine ⟨iff_of_true ⟨b, rfl⟩ ⟨c, rfl⟩, fun e => iff_of_false nofun nofun, ?_⟩
    intro s r hs hr
    cases hs
    cases hr
    exact hbody
  | error e =>
    refine ⟨iff_of_false nofun nofun, fun e' => Iff.rfl, ?_⟩
    intro s r hs
    cases hs

/-- A body with a pointer, a day, and nested alternatives. -/
theorem targets_simulate_nested :
    let body := Value.object [
      ("author", (Pointer.mk "User" "u1").toWire),
      ("$or", .list [
        .object [("createdAt", .object [("$gte", .date ⟨2024, 2, 29⟩)])],
        .object [("objectId", .object [("$in", .list [.text "a", .int 1])])]])]
    body.isWellFormed = true ∧ ∃ s r, matchBody .storage body = .ok s ∧
      matchBody .remote body = .ok r ∧ isoDates s = .ok (columns r) := by
  intro body
  have hbody : body.isWellFormed = true := rfl
  exact ⟨hbody, _, _, rfl, rfl, (targets_simulate hbody).2.2 _ _ rfl rfl⟩

end DocQuery.Encoding
