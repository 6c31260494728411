-- SUMMARY: The match bodies of grouped filters: every logical list has members, and no alternative is without conditions.
import DocQuery.Proofs.Assoc
import DocQuery.Proofs.Encoding.Targets
import DocQuery.Proofs.FieldName.Spelling
import DocQuery.Proofs.Filter.Reach

/-!
# Bodies of grouped filters

The store rejects an empty list under a logical key, and an alternative without conditions
would let everything pass. The bodies of grouped filters hold neither, at any depth, as
long as no constraint is on a field that is spelled like a logical key.
-/

namespace DocQuery

open Encoding (isLogical)

namespace Filter

/-! ## Logical positions -/

/-- A value, and at any depth the members of the lists under its logical keys. -/
inductive AtLogical (v : Value) : Value → Prop
  | self : AtLogical v v
  | inside {es : List (Value × Value)} {key : String} {xs : List Value} {w : Value}
    (h : AtLogical v (.map es)) (hkey : isLogical key = true)
    (hlist : (.text key, .list xs) ∈ es) (hw : w ∈ xs) : AtLogical v w

/-- Under the logical keys of a value stand lists with members, and these are bodies with
    conditions. -/
def ListsGiven (v : Value) : Prop :=
  ∀ es, v = .map es → ∀ key w, isLogical key = true → (.text key, w) ∈ es →
    ∃ xs, w = .list xs ∧ xs ≠ [] ∧ ∀ x ∈ xs, ∃ body : MatchBody, x = .object body ∧ body ≠ []

/-- At every logical position of a value the logical lists are given. -/
def IsSound (v : Value) : Prop :=
  ∀ w, AtLogical v w → ListsGiven w

theorem mem_object {body : MatchBody} {key : String} {w : Value}
    (h : (.text key, w) ∈ body.map fun e => (Value.text e.1, e.2)) : (key, w) ∈ body := by
  obtain ⟨e, he, heq⟩ := List.mem_map.mp h
  cases heq
  exact he

/-- A body is sound when its logical lists have members, and these are sound bodies with
    conditions. -/
theorem isSound_object {body : MatchBody} (h : ∀ key w, isLogical key = true → (key, w) ∈ body →
      ∃ xs, w = .list xs ∧ xs ≠ [] ∧
        ∀ x ∈ xs, ∃ b : MatchBody, x = .object b ∧ b ≠ [] ∧ IsSound (.object b)) :
    IsSound (.object body) := by
  have hhead : ListsGiven (.object body) := by
    intro es hes key w hkey hw
    cases hes
    obtain ⟨xs, hxs, hne, hmembers⟩ := h key w hkey (mem_object hw)
    refine ⟨xs, hxs, hne, fun x hx => ?_⟩
    obtain ⟨b, hb, hgiven, _⟩ := hmembers x hx
    exact ⟨b, hb, hgiven⟩
  -- a logical position is the body itself, or one of a member of its lists
  have hsplit : ∀ w, AtLogical (.object body) w → w = .object body ∨
      ∃ key xs x, isLogical key = true ∧ (key, .list xs) ∈ body ∧ x ∈ xs ∧ AtLogical x w := by
    intro w hw
    induction hw with
    | self => exact .inl rfl
    | @inside es key xs w _ hkey hlist hw ih =>
      rcases ih with heq | ⟨key', xs', x, hkey', hlist', hx, hpos⟩
      · cases heq
        exact .inr ⟨key, xs, w, hkey, mem_object hlist, hw, .self⟩
      · exact .inr ⟨key', xs', x, hkey', hlist', hx, hpos.inside hkey hlist hw⟩
  intro w hw
  rcases hsplit w hw with rfl | ⟨key, xs, x, hkey, hlist, hx, hpos⟩
  · exact hhead
  · obtain ⟨xs', hxs', _, hmembers⟩ := h key (.list xs) hkey hlist
    cases hxs'
    obtain ⟨b, rfl, _, hsound⟩ := hmembers x hx
    exact hsound w hpos

/-! ## The conjunction of constraints -/

theorem mem_keys_docsByField {docs : List (String × OperatorDoc)} {key : String} :
    key ∈ Assoc.keys (docsByField docs) ↔ key ∈ Assoc.keys docs := by
  have hfold : ∀ acc : List (String × OperatorDoc), key ∈ Assoc.keys
      (docs.foldl (fun acc d => addDoc acc d.1 d.2) acc) ↔
        key ∈ Assoc.keys acc ∨ key ∈ Assoc.keys docs := by
    induction docs with
    | nil => simp
    | cons c docs ih =>
      intro acc
      have hadd : key ∈ Assoc.keys (addDoc acc c.1 c.2) ↔ key = c.1 ∨ key ∈ Assoc.keys acc :=
        Assoc.mem_keys_assign
      rw [List.foldl_cons, ih, hadd, Assoc.keys_cons, List.mem_cons]
      tauto
  exact (hfold []).trans (or_iff_right List.not_mem_nil)

theorem keys_conjunction_eq (docs : List (String × OperatorDoc)) :
    Assoc.keys (conjunction docs) = Assoc.keys (docsByField docs) := by
  rw [conjunction, Assoc.keys, Assoc.keys, List.map_map]
  rfl

theorem conjunction_eq_nil_iff {docs : List (String × OperatorDoc)} :
    conjunction docs = [] ↔ docs = [] := by
  constructor
  · intro h
    rw [List.eq_nil_iff_forall_not_mem]
    intro c hc
    have hkey : c.1 ∈ Assoc.keys (conjunction docs) := by
      rw [keys_conjunction_eq, mem_keys_docsByField]
      exact List.mem_map_of_mem hc
    rw [h] at hkey
    cases hkey
  · rintro rfl
    rfl

/-! ## Groups -/

/-- The alternatives of a group are there, and are sound bodies with conditions. -/
def IsSoundGroup (alternatives : List Value) : Prop :=
  alternatives ≠ [] ∧ ∀ v ∈ alternatives, ∃ b : MatchBody, v = .object b ∧ b ≠ [] ∧
    IsSound (.object b)

theorem isSound_disjunction {alternatives : List Value} (h : IsSoundGroup alternatives) :
    IsSound (disjunction alternatives) := by
  refine isSound_object fun key w _ hw => ?_
  cases List.mem_singleton.mp hw
  exact ⟨alternatives, rfl, h.1, h.2⟩

variable {body : MatchBody} (hbody : ∀ key ∈ Assoc.keys body, isLogical key = false)

include hbody in
theorem isSound_assign {key : String} (hkey : isLogical key = true) {xs : List Value}
    (hxs : IsSoundGroup xs) : IsSound (.object (Assoc.assign key (.list xs) body)) := by
  have hnew : key ∉ Assoc.keys body := fun hmem => by
    rw [hbody key hmem] at hkey
    cases hkey
  rw [Assoc.assign_of_not_mem hnew]
  refine isSound_object fun key' w hkey' hw => ?_
  rcases List.mem_append.mp hw with hw | hw
  · rw [hbody key' (List.mem_map_of_mem hw)] at hkey'
    cases hkey'
  · cases List.mem_singleton.mp hw
    exact ⟨xs, rfl, hxs.1, hxs.2⟩

include hbody in
/-- A conjunction with sound groups is sound, and empty only if it is without both. -/
theorem isSound_withGroups {groups : List (List Value)} (hgroups : ∀ g ∈ groups, IsSoundGroup g) :
    IsSound (.object (withGroups body groups)) ∧
      (withGroups body groups = [] ↔ body = [] ∧ groups = []) := by
  have hgiven : groups.filter (!·.isEmpty) = groups :=
    List.filter_eq_self.mpr fun g hg => by simpa using (hgroups g hg).1
  have hassign : ∀ key v, Assoc.assign key v body ≠ [] := fun key v hnil => by
    have hmem : key ∈ Assoc.keys (Assoc.assign key v body) := Assoc.mem_keys_assign.mpr (.inl rfl)
    rw [hnil] at hmem
    cases hmem
  unfold withGroups
  rw [hgiven]
  match groups, hgroups with
  | [], _ =>
    refine ⟨isSound_object fun key w hkey hw => ?_, by simp⟩
    rw [hbody key (List.mem_map_of_mem hw)] at hkey
    cases hkey
  | [g], hgroups =>
    exact ⟨isSound_assign hbody rfl (hgroups g List.mem_cons_self), by simp [hassign]⟩
  | g :: g' :: rest, hgroups =>
    refine ⟨isSound_assign hbody rfl ⟨by simp, fun v hv => ?_⟩, by simp [hassign]⟩
    obtain ⟨alternatives, hmem, rfl⟩ := List.mem_map.mp hv
    exact ⟨_, rfl, by simp, isSound_disjunction (hgroups alternatives hmem)⟩

end Filter

namespace FilterStore

open DocQuery.Filter

/-- No constraint that a filter leads to is on a field that begins with a dollar sign. -/
def NamesFields (s : FilterStore) (id : FilterId) : Prop :=
  ∀ a, s.LeadsTo id a → ∀ c ∈ (s.get a).constraints, c.field.toList.head? ≠ some '$'

/-- What holds of the constraints in all cells holds of those at any place. -/
theorem forall_mem_constraints {s : FilterStore} {P : Constraint → Prop}
    (h : ∀ cell ∈ s.cells, ∀ c ∈ cell.constraints, P c) (a : FilterId) :
    ∀ c ∈ (s.get a).constraints, P c := by
  unfold get
  cases hcell : s.cells[a]? with
  | none => exact List.forall_mem_nil _
  | some cell => exact h cell (List.mem_of_getElem? hcell)

theorem namesFields_of_forall {s : FilterStore}
    (h : ∀ cell ∈ s.cells, ∀ c ∈ cell.constraints, c.field.toList.head? ≠ some '$')
    (id : FilterId) : s.NamesFields id :=
  fun a _ => forall_mem_constraints h a

theorem not_logical_of_compile {cs : List Constraint} {docs : List (String × OperatorDoc)}
    (h : cs.mapM Constraint.compile = .ok docs)
    (hfields : ∀ c ∈ cs, c.field.toList.head? ≠ some '$') :
    ∀ key ∈ Assoc.keys (conjunction docs), isLogical key = false := by
  have hdocs : ∀ d ∈ docs, isLogical d.1 = false := by
    refine forall_mem_of_mapM_eq_ok h fun c hc d hcompile => ?_
    rw [Constraint.compile] at hcompile
    split at hcompile <;> cases hcompile
    exact Encoding.not_logical_of_lead (FieldName.head?_wire (hfields c hc))
  intro key hkey
  rw [keys_conjunction_eq, mem_keys_docsByField] at hkey
  obtain ⟨d, hd, rfl⟩ := List.mem_map.mp hkey
  exact hdocs d hd

/-- The body of a cell in a grouped store is sound, and empty only if the cell is. -/
theorem isSound_compileWithin {s : FilterStore} (hs : s.IsGrouped) {fuel : Nat} {id : FilterId}
    (hfields : s.NamesFields id) {body : MatchBody} (h : s.compileWithin fuel id = .ok body) :
    IsSound (.object body) ∧ (body = [] ↔ (s.get id).isEmpty = true) := by
  induction fuel generalizing id body with
  | zero => cases h
  | succ fuel ih =>
    obtain ⟨docs, groups, hparts, rfl⟩ := compileWithin_succ_iff.mp h
    have hsound : ∀ vs ∈ groups, IsSoundGroup vs := by
      intro vs hvs
      obtain ⟨g, hg, hgroup⟩ := exists_mem_of_forall₂ hparts.groups.flip hvs
      obtain ⟨hne, hgiven⟩ := hs id g hg
      refine ⟨mt (eq_nil_iff_of_forall₂ hgroup).mpr hne, fun v hv => ?_⟩
      obtain ⟨a, ha, b, hb, rfl⟩ := exists_mem_of_forall₂ hgroup.flip hv
      have hmember : s.NamesFields a := fun c hc =>
        hfields c (Relation.ReflTransGen.head ⟨g, hg, ha⟩ hc)
      obtain ⟨hbody, hempty⟩ := ih hmember hb
      refine ⟨b, rfl, fun hnil => ?_, hbody⟩
      exact Bool.false_ne_true ((hgiven a ha).symm.trans (hempty.mp hnil))
    obtain ⟨hbody, hempty⟩ := isSound_withGroups
      (not_logical_of_compile hparts.docs (hfields id .refl)) hsound
    refine ⟨hbody, hempty.trans ?_⟩
    rw [conjunction_eq_nil_iff, ← eq_nil_iff_of_forall₂ (mapM_eq_ok_iff.mp hparts.docs),
      ← eq_nil_iff_of_forall₂ hparts.groups, FilterCell.isEmpty, Bool.and_eq_true,
      List.isEmpty_iff, List.isEmpty_iff]

end FilterStore

end DocQuery
