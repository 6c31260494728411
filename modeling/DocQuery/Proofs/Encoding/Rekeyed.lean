-- SUMMARY: Match bodies and stage documents are encoded alike however reserved keys are spelled.
import DocQuery.Proofs.Encoding.Data
import DocQuery.Proofs.Wire.Rekeyed

/-!
# Respelled keys in pipelines

The encoder looks at the texts of keys: for a tag, for the name of an operator, of a stage or of a
field. So values, match bodies, expressions and stage documents that differ in the spelling of
keys only are encoded alike, for both targets.
-/

namespace DocQuery.Encoding

open Value (Rekeyed SameField ConvertAlike FieldAlike)

variable {v w : Value} {target : Target}

/-! ## Values -/

theorem date_rekeyed (h : Rekeyed v w) : ConvertAlike (date target v) (date target w) := by
  have hread := DateTime.ofValue_rekeyed h
  cases target with
  | remote => exact .ofEq ((hread.map_same DateTime.wireText).map_same Value.text)
  | storage => exact .ofEq (hread.map_same Value.datetime)

theorem pointer_rekeyed (h : Rekeyed v w) : ConvertAlike (pointer v) (pointer w) :=
  (Pointer.ofValue?_rekeyed h).bind_same fun _ => ConvertAlike.refl _

theorem value_rekeyed (h : Rekeyed v w) : ConvertAlike (value target v) (value target w) := by
  induction h using Rekeyed.induct with
  | same v => exact .refl _
  | list _ ih | tuple _ ih =>
    rw [value, value, items_eq_mapM, items_eq_mapM]
    exact .list (ih.imp fun _ _ hxy => hxy.2 hxy.1)
  | map hmap ih =>
    rw [value, value, hmap.isPointer, hmap.isDate]
    split
    · exact pointer_rekeyed hmap
    · split
      · exact date_rekeyed hmap
      · rw [entries_eq_mapM, entries_eq_mapM]
        exact .entries (fun _ => value target) (ih.imp fun _ _ hef => ⟨hef.1, hef.2.2 hef.2.1⟩)

/-! ## Operands -/

theorem any_isPointer_rekeyed {xs ys : List Value} (h : List.Forall₂ Rekeyed xs ys) :
    xs.any Value.isPointer = ys.any Value.isPointer :=
  any_eq_any_of_forall₂ h fun _ _ hxy => hxy.isPointer

theorem hasPointerAtTop_rekeyed (h : Rekeyed v w) : hasPointerAtTop v = hasPointerAtTop w := by
  rw [hasPointerAtTop, hasPointerAtTop, h.isPointer]
  cases h with
  | list h | tuple h => exact congrArg _ (any_isPointer_rekeyed h)
  | _ => rfl

theorem holdsPointer_rekeyed (h : Rekeyed v w) : holdsPointer v = holdsPointer w := by
  rw [holdsPointer, holdsPointer, h.isPointer, h.isTagged]
  cases h with
  | @map es fs hkeys hvalues =>
    have hany : (es.any fun e => hasPointerAtTop e.2) = fs.any fun f => hasPointerAtTop f.2 :=
      any_eq_any_of_forall₂ hvalues fun _ _ hvalue => hasPointerAtTop_rekeyed hvalue
    simp only [Value.entries?, Option.any_some, hany]
  | _ => rfl

theorem commonClass?_rekeyed {xs ys : List Value} (h : List.Forall₂ Rekeyed xs ys) :
    SucceedAlike Eq (commonClass? xs) (commonClass? ys) := by
  obtain ⟨hnone, hnone'⟩ | ⟨x, y, hx, hy, hxy⟩ :=
    none_or_some_of_rel (find?_of_forall₂ h fun _ _ hxy => hxy.isPointer)
  · rw [commonClass?, commonClass?, hnone, hnone']
    exact .ok rfl
  · rw [commonClass?, commonClass?, hx, hy]
    exact (Pointer.ofValue?_rekeyed hxy).map_same _

theorem member_rekeyed (h : Rekeyed v w) (common : Option String) :
    ConvertAlike (member target common v) (member target common w) := by
  have hvalue : ConvertAlike (value target v) (value target w) := value_rekeyed h
  -- what is no text is encoded as a value, in whatever class the others are
  cases h with
  | same => exact .refl _
  | _ => cases common <;> exact hvalue

theorem membership_rekeyed {xs ys : List Value} (h : List.Forall₂ Rekeyed xs ys) :
    ConvertAlike (membership target xs) (membership target ys) := by
  refine (commonClass?_rekeyed h).bind_same fun common => ?_
  exact ConvertAlike.list (h.imp fun _ _ hxy => member_rekeyed hxy common)

theorem operatorOperand_rekeyed (h : Rekeyed v w) (op : String) :
    ConvertAlike (operatorOperand target op v) (operatorOperand target op w) := by
  have hvalue : ConvertAlike (value target v) (value target w) := value_rekeyed h
  rw [operatorOperand, operatorOperand]
  cases isMembership op with
  | false => exact hvalue
  | true =>
    cases h with
    | same => exact .refl _
    | list h | tuple h => exact membership_rekeyed h
    | map _ _ => exact hvalue

theorem operand_rekeyed (h : Rekeyed v w) :
    ConvertAlike (operand target v) (operand target w) := by
  have hvalue : ConvertAlike (value target v) (value target w) := value_rekeyed h
  cases h with
  | same => exact .refl _
  | list _ | tuple _ => exact hvalue
  | @map es fs hkeys hvalues =>
    have hmap := Rekeyed.map hkeys hvalues
    cases htagged : (Value.map fs).isPointer || (Value.map fs).isDate with
    | true =>
      rw [operand, operand, hmap.isPointer, hmap.isDate, if_pos htagged, if_pos htagged]
      exact hvalue
    | false =>
      obtain ⟨hpointer, hdate⟩ := Bool.or_eq_false_iff.mp htagged
      rw [operand_map (hmap.isPointer.trans hpointer) (hmap.isDate.trans hdate),
        operand_map hpointer hdate]
      exact .entries (operatorOperand target) (hmap.entries.imp fun e _ hef =>
        ⟨hef.1, operatorOperand_rekeyed hef.2 e.1.keyText⟩)

/-! ## Match bodies -/

theorem clauseName_rekeyed (h : Rekeyed v w) (key : String) :
    clauseName target key v = clauseName target key w := by
  unfold clauseName
  rw [holdsPointer_rekeyed h]

theorem clause_rekeyed (h : Rekeyed v w) (key : String) :
    FieldAlike (clause target key v) (clause target key w) := by
  rw [clause, clause, clauseName_rekeyed h]
  split
  · exact (value_rekeyed h).named key
  · exact (operand_rekeyed h).named _

theorem noBodies_rekeyed (h : Rekeyed v w) : ConvertAlike (noBodies v) (noBodies w) := by
  cases h with
  | same => exact .refl _
  | list h | tuple h => cases h <;> exact .refl _
  | map h _ => cases h <;> exact .refl _

/-- A match body is encoded alike, and so is a list of them. -/
theorem matchBody_rekeyed (h : Rekeyed v w) :
    ConvertAlike (matchBody target v) (matchBody target w) ∧
      ConvertAlike (alternatives target v) (alternatives target w) := by
  induction h using Rekeyed.induct with
  | same v => exact ⟨.refl _, .refl _⟩
  | list _ ih | tuple _ ih =>
    refine ⟨.refl _, ?_⟩
    rw [alternatives, alternatives, matchBodies_eq_mapM, matchBodies_eq_mapM]
    exact .list (ih.imp fun _ _ hxy => (hxy.2 hxy.1).1)
  | map hmap ih =>
    refine ⟨?_, noBodies_rekeyed hmap⟩
    rw [matchBody, matchBody, matchEntries_eq_mapM, matchEntries_eq_mapM]
    refine .object (ih.imp fun e f hef => ?_)
    rw [hef.1.keyText]
    split
    · exact (hef.2.2 hef.2.1).2.named f.1.keyText
    · exact clause_rekeyed hef.2.1 f.1.keyText

/-! ## Stages -/

theorem expression_rekeyed (h : Rekeyed v w) :
    ConvertAlike (expression target v) (expression target w) := by
  induction h using Rekeyed.induct with
  | same v => exact .refl _
  | list _ ih | tuple _ ih =>
    rw [expression, expression, expressions_eq_mapM, expressions_eq_mapM]
    exact .list (ih.imp fun _ _ hxy => hxy.2 hxy.1)
  | map hmap ih =>
    rw [expression, expression, hmap.isPointer, hmap.isDate]
    split
    · exact value_rekeyed hmap
    · rw [expressionEntries_eq_mapM, expressionEntries_eq_mapM]
      exact .entries (fun _ => expression target) (ih.imp fun _ _ hef =>
        ⟨hef.1, hef.2.2 hef.2.1⟩)

theorem isFlag_rekeyed (h : Rekeyed v w) : isFlag v = isFlag w := by
  rw [isFlag, isFlag, Value.isIn, Value.isIn]
  congr 1
  funext x
  exact h.equal_right x

theorem projectionEntry_rekeyed {k k' : Value} (hkey : Value.SameKey k k') (h : Rekeyed v w) :
    FieldAlike (projectionEntry target k v) (projectionEntry target k' w) := by
  unfold projectionEntry
  rw [hkey.keyText, isFlag_rekeyed h]
  exact (expression_rekeyed h).bindNamed _

theorem sortKey_rekeyed {k k' : Value} (hkey : Value.SameKey k k') :
    sortKey target k = sortKey target k' := by
  unfold sortKey
  rw [hkey.keyText]

theorem mapping_rekeyed (h : Rekeyed v w) :
    SucceedAlike Value.RekeyedEntries (mapping v) (mapping w) := by
  obtain ⟨hnone, hnone'⟩ | ⟨es, fs, hes, hfs, hentries⟩ := none_or_some_of_rel h.entries?
  · rw [mapping, mapping, hnone, hnone']
    exact .error _ _
  · rw [mapping, mapping, hes, hfs]
    exact .ok hentries

theorem stageBody_rekeyed (h : Rekeyed v w) (op : String) :
    ConvertAlike (stageBody target op v) (stageBody target op w) := by
  unfold stageBody
  split
  · exact (matchBody_rekeyed h).1
  · refine (mapping_rekeyed h).map fun es fs hentries => ?_
    refine .object (Assoc.ofPairs_forall₂ ?_)
    rw [List.forall₂_map_left_iff, List.forall₂_map_right_iff]
    exact hentries.imp fun _ _ hef => ⟨sortKey_rekeyed hef.1, hef.2⟩
  · refine (mapping_rekeyed h).bind fun es fs hentries => ?_
    refine (SucceedAlike.mapM (R := SameField) ?_).bind fun _ _ hfields =>
      .ok (.object (Assoc.ofPairs_forall₂ hfields))
    exact hentries.imp fun _ _ hef => projectionEntry_rekeyed hef.1 hef.2
  · exact expression_rekeyed h
  · exact expression_rekeyed h
  · exact expression_rekeyed h
  · exact .ok h
  · exact .ok h
  · exact .ok h
  · exact value_rekeyed h

theorem stage_rekeyed (h : Rekeyed v w) : ConvertAlike (stage target v) (stage target w) := by
  refine (mapping_rekeyed h).bind fun es fs hentries => ?_
  refine (SucceedAlike.mapM (R := SameField) ?_).bind fun _ _ hfields => .ok (.object hfields)
  refine (Rekeyed.fields hentries).imp ?_
  rintro ⟨op, x⟩ ⟨op', y⟩ ⟨rfl, hbody⟩
  exact (stageBody_rekeyed hbody op).bindNamed op

end DocQuery.Encoding
