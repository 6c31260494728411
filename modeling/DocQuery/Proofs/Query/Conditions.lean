-- SUMMARY: A key of a mapping of conditions names at most one field and operator, and its condition acts as the constraint with these.
import DocQuery.Proofs.Json.Data
import DocQuery.Proofs.Query.Items

/-!
# Keys of conditions

A key names a field and an operator when it is the field, two underscores and the name of the
operator. The field may have underscores anywhere, also at its end; but no name of an operator
begins with one or has two in a row. So the last two underscores of the key are those behind the
field, and a key that is read there is read in the only way.
-/

namespace DocQuery

open Text (CodePoint)
open Text.CodePoint (ofText)
open Json (ofPoints_ofText ofPoints_points points?_ofPoints)

/-! ## Texts as rows of code points -/

namespace Value

theorem eq_ofText {v : Value} {ps : List CodePoint} {s : String} (hps : v.points? = some ps)
    (hs : v.text? = some s) : ps = ofText s := by
  cases v with
  | text t =>
    cases hps
    cases hs
    rfl
  | tagKey k =>
    cases hps
    cases hs
    rfl
  | _ => cases hs

end Value

theorem Constraint.fieldName_ofPoints {v : Value} {ps : List CodePoint} (h : v.points? = some ps)
    (name : String) : fieldName name (.ofPoints ps) = fieldName name v := by
  cases v with
  | text s =>
    cases h
    rw [ofPoints_ofText]
  | brokenText t =>
    cases h
    rw [ofPoints_points]
  | tagKey k =>
    cases h
    rw [ofPoints_ofText]
    rfl
  | _ => cases h

/-- A field is the same whichever way its text is given. -/
theorem Draft.constrain_ofPoints (d : Draft) {field : Value} {ps : List CodePoint}
    (h : field.points? = some ps) (operator v : Value) :
    d.constrain (.ofPoints ps) operator v = d.constrain field operator v := by
  simp only [Draft.constrain, FilterStore.add, Constraint.ofValues,
    Constraint.fieldName_ofPoints h]

namespace Condition

/-! ## The last two underscores -/

theorem splitLast?_cons {ps before behind : List CodePoint}
    (h : splitLast? ps = some (before, behind)) (p : CodePoint) :
    splitLast? (p :: ps) = some (p :: before, behind) := by
  unfold splitLast?
  split
  · rename_i heq
    cases heq
  · rename_i heq
    cases heq
    simp only [h]
  · rename_i heq
    cases heq
    simp only [h, Option.map_some]

/-- A key is split behind any row of characters, as long as no two underscores come later. -/
theorem splitLast?_append {behind : List CodePoint} (h : splitLast? (.char '_' :: behind) = none)
    (before : List CodePoint) :
    splitLast? (before ++ .char '_' :: .char '_' :: behind) = some (before, behind) := by
  induction before with
  | nil => simp only [List.nil_append, splitLast?, h]
  | cons p before ih => exact splitLast?_cons ih p

theorem eq_of_splitLast? {ps before behind : List CodePoint}
    (h : splitLast? ps = some (before, behind)) :
    ps = before ++ .char '_' :: .char '_' :: behind := by
  fun_induction splitLast? ps generalizing before behind with
  | case1 => cases h
  | case2 rest before' behind' hrest ih =>
    cases h
    exact congrArg (CodePoint.char '_' :: ·) (ih hrest)
  | case3 rest hrest =>
    cases h
    rfl
  | case4 p rest hne ih =>
    obtain ⟨⟨before', behind'⟩, hrest, heq⟩ := Option.map_eq_some_iff.mp h
    cases heq
    exact congrArg (p :: ·) (ih hrest)

/-! ## Operators -/

theorem ofName?_operator {s : String} {op : Operator} :
    Vocabulary.ofName? Operator s = some op ↔ op.name = s := by
  constructor
  · intro h
    unfold Vocabulary.ofName? at h
    have hname := List.find?_some h
    exact beq_iff_eq.mp hname
  · rintro rfl
    cases op <;> rfl

/-- No name of an operator begins with an underscore, or has two of them in a row. -/
theorem splitLast?_operator (op : Operator) :
    splitLast? (.char '_' :: ofText op.name) = none := by
  cases op <;> rfl

/-! ## Keys -/

/-- A key names a field and an operator. -/
def Names (key field : List CodePoint) (op : Operator) : Prop :=
  key = field ++ ofText ("__" ++ op.name)

theorem names_iff {key field : List CodePoint} {op : Operator} :
    Names key field op ↔ key = field ++ .char '_' :: .char '_' :: ofText op.name := by
  have hmark : ofText ("__" ++ op.name) = .char '_' :: .char '_' :: ofText op.name := by
    simp only [ofText, String.toList_append, List.map_append]
    rfl
  simp only [Names, hmark]

theorem Names.splitLast? {key field : List CodePoint} {op : Operator} (h : Names key field op) :
    splitLast? key = some (field, ofText op.name) := by
  rw [names_iff.mp h]
  exact splitLast?_append (splitLast?_operator op) field

/-- No key names two fields or two operators. -/
theorem Names.unique {key field field' : List CodePoint} {op op' : Operator}
    (h : Names key field op) (h' : Names key field' op') : field = field' ∧ op = op' := by
  have hsplit := h.splitLast?.symm.trans h'.splitLast?
  simp only [Option.some.injEq, Prod.mk.injEq] at hsplit
  have hname : op.name = op'.name := CodePoint.ofText_injective hsplit.2
  have hread := ofName?_operator.mpr hname
  exact ⟨hsplit.1, Option.some.inj (hread.symm.trans (ofName?_operator.mpr rfl))⟩

theorem split_of_names {key field : List CodePoint} {op : Operator} (h : Names key field op)
    (hfield : field ≠ []) : split key = (field, op) := by
  have hread := ofName?_operator.mpr (Eq.refl op.name)
  simp only [split, h.splitLast?, ofPoints_ofText, Value.text?, Option.bind_some, hread,
    List.isEmpty_iff, hfield, if_false]

/-- A key that names no field and operator is a field to be equal to its value. -/
theorem split_of_not_names {key : List CodePoint}
    (h : ¬∃ field op, field ≠ [] ∧ Names key field op) : split key = (key, .equal) := by
  unfold split
  split
  · rename_i field suffix hlast
    split
    · rename_i op hop
      split
      · rfl
      · rename_i hfield
        exfalso
        apply h
        obtain ⟨s, hs, hname⟩ := Option.bind_eq_some_iff.mp hop
        refine ⟨field, op, by simpa using hfield, names_iff.mpr ?_⟩
        rw [ofName?_operator.mp hname, ← Value.eq_ofText (points?_ofPoints suffix) hs]
        exact eq_of_splitLast? hlast
    · rfl
  · rfl

end Condition

namespace Draft

/-! ## Mappings of conditions -/

/-- The condition of a key acts as the constraint that the key is split into. -/
theorem constrainAll_singleton (d : Draft) {key : Value} {ks : List CodePoint}
    (hkey : key.points? = some ks) (v : Value) :
    d.modify (.constrainAll (.map [(key, v)])) = d.modify (.constrain
      (.ofPoints (Condition.split ks).1) (.text (Condition.split ks).2.name) v) := by
  simp only [modify, Attempt.each_singleton, addCondition, hkey]

/-- Keys of conditions are read unambiguously. A key made of a field, two underscores and the name
    of an operator is read as these, a key that is not made so is a field to be equal to its value,
    and no key is made so in two ways. Several keys act as one after the other. -/
theorem keys_read_unambiguously (d : Draft) :
    (∀ (key field v : Value) (fs : List CodePoint) (op : Operator), field.points? = some fs →
      fs ≠ [] → key.points? = some (fs ++ ofText ("__" ++ op.name)) →
      d.modify (.constrainAll (.map [(key, v)])) =
        d.modify (.constrain field (.text op.name) v)) ∧
    (∀ (key v : Value) (ks : List CodePoint), key.points? = some ks →
      (¬∃ fs op, fs ≠ [] ∧ ks = fs ++ ofText ("__" ++ Operator.name op)) →
      d.modify (.constrainAll (.map [(key, v)])) = d.modify (.constrain key (.text "eq") v)) ∧
    (∀ (fs fs' : List CodePoint) (op op' : Operator),
      fs ++ ofText ("__" ++ op.name) = fs' ++ ofText ("__" ++ op'.name) → fs = fs' ∧ op = op') ∧
    ∀ (entries : List (Value × Value)) (calls : List Modifier),
      List.Forall₂ (fun entry call => ∀ s : Draft,
        s.modify (.constrainAll (.map [entry])) = s.modify call) entries calls →
      d.modify (.constrainAll (.map entries)) = d.modifyAll calls := by
  refine ⟨?_, ?_, ?_, ?_⟩
  · intro key field v fs op hfield hne hkey
    rw [constrainAll_singleton d hkey, Condition.split_of_names rfl hne]
    simp only [modify, constrain_ofPoints d hfield]
  · intro key v ks hkey hnames
    rw [constrainAll_singleton d hkey, Condition.split_of_not_names hnames]
    simp only [modify, constrain_ofPoints d hkey]
    rfl
  · intro fs fs' op op' h
    have hnames : Condition.Names (fs ++ ofText ("__" ++ op.name)) fs op := rfl
    exact hnames.unique h
  · intro entries calls hcalls
    rw [← modifyAll_items modify_constrainAll d entries]
    exact modifyAll_congr (List.forall₂_map_left_iff.mpr hcalls) d

/-- Underscores at the end of a field stay with it, and a suffix that is no operator stays with
    the field. -/
theorem keys_read_unambiguously_songs :
    let d : Draft := ⟨⟨[.empty]⟩, { className := .text "Song", filter := 0 }⟩
    let entries : List (Value × Value) :=
      [(.text "title___starts_with", .text "Al"), (.text "meta__version", .int 2)]
    let calls : List Modifier := [.constrain (.text "title_") (.text "starts_with") (.text "Al"),
      .constrain (.text "meta__version") (.text "eq") (.int 2)]
    (¬∃ fs op, fs ≠ [] ∧ ofText "meta__version" = fs ++ ofText ("__" ++ Operator.name op)) ∧
      List.Forall₂ (fun entry call => ∀ s : Draft,
        s.modify (.constrainAll (.map [entry])) = s.modify call) entries calls ∧
      d.modify (.constrainAll (.map entries)) = d.modifyAll calls ∧
      (d.modifyAll calls).fault? = none := by
  intro d entries calls
  have hplain : ¬∃ fs op, fs ≠ [] ∧
      ofText "meta__version" = fs ++ ofText ("__" ++ Operator.name op) := by
    rintro ⟨fs, op, hne, h⟩
    have hsplit := Condition.split_of_names h hne
    have heq : Condition.split (ofText "meta__version") = (ofText "meta__version", .equal) := rfl
    obtain ⟨hfield, _⟩ := Prod.mk.inj (heq.symm.trans hsplit)
    have hlength := congrArg List.length h
    simp [← hfield, ofText] at hlength
  have hcalls : List.Forall₂ (fun entry call => ∀ s : Draft,
      s.modify (.constrainAll (.map [entry])) = s.modify call) entries calls := by
    refine .cons ?_ (.cons ?_ .nil)
    · intro s
      exact (keys_read_unambiguously s).1 _ _ _ (ofText "title_") .startsWith rfl (by decide) rfl
    · intro s
      exact (keys_read_unambiguously s).2.1 _ _ _ rfl hplain
  exact ⟨hplain, hcalls, (keys_read_unambiguously d).2.2.2 entries calls hcalls, rfl⟩

end Draft

end DocQuery
