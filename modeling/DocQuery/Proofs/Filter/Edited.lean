-- SUMMARY: What building and copying do to a store: new cells, and further conditions for cells, in groups that are never empty.
import DocQuery.Proofs.Filter.Sharing
import DocQuery.Query.Combined

/-!
# Edited stores

Whatever is done to filters, a store changes in two ways only: a new cell is put behind the
others, or a cell gets further constraints and groups. The groups that come in are made of
cells with conditions, and no cell ever loses a condition. So groups stay as they have to
be, although their alternatives go on changing.
-/

namespace DocQuery

/-- The cell with further conditions. -/
def FilterCell.extend (constraints : List Constraint) (groups : List (List FilterId))
    (c : FilterCell) : FilterCell :=
  ⟨c.constraints ++ constraints, c.groups ++ groups⟩

theorem FilterCell.isEmpty_extend {c : FilterCell} (hc : c.isEmpty = false)
    (constraints : List Constraint) (groups : List (List FilterId)) :
    (c.extend constraints groups).isEmpty = false := by
  simp only [isEmpty, extend, Bool.and_eq_false_iff, List.isEmpty_eq_false_iff, ne_eq,
    List.append_eq_nil_iff, not_and_or] at hc ⊢
  exact hc.imp .inl .inl

namespace FilterStore

/-! ## Cells of a changed store -/

theorem get_of_le {s : FilterStore} {id : FilterId} (h : s.cells.length ≤ id) :
    s.get id = .empty := by
  rw [get, List.getElem?_eq_none h]
  rfl

theorem lt_of_isEmpty {s : FilterStore} {id : FilterId} (h : (s.get id).isEmpty = false) :
    id < s.cells.length := by
  by_contra hout
  rw [get_of_le (Nat.le_of_not_lt hout)] at h
  cases h

theorem get_modify_cases (s : FilterStore) (id : FilterId) (change : FilterCell → FilterCell)
    (a : FilterId) : (s.modify id change).get a = s.get a ∨
      a = id ∧ (s.modify id change).get a = change (s.get a) := by
  by_cases ha : a = id
  · subst ha
    by_cases hin : a < s.cells.length
    · exact .inr ⟨rfl, get_modify_self hin change⟩
    · have hout := Nat.le_of_not_lt hin
      rw [get_of_le hout, get_of_le (by rwa [length_modify])]
      exact .inl rfl
  · exact .inl (get_modify_of_ne ha change)

theorem get_push_of_lt {s : FilterStore} {a : FilterId} (ha : a < s.cells.length)
    (c : FilterCell) : (s.push c).2.get a = s.get a := by
  rw [push, get, get, List.getElem?_append_left ha]

theorem get_push_self (s : FilterStore) (c : FilterCell) :
    (s.push c).2.get s.cells.length = c := by
  simp [push, get]

theorem get_push_cases (s : FilterStore) (c : FilterCell) (a : FilterId) :
    (s.push c).2.get a = s.get a ∨ a = s.cells.length ∧ (s.push c).2.get a = c := by
  rcases Nat.lt_trichotomy a s.cells.length with hlt | rfl | hgt
  · exact .inl (get_push_of_lt hlt c)
  · exact .inr ⟨rfl, get_push_self s c⟩
  · have hout : (s.push c).2.cells.length ≤ a := by
      rw [push, List.length_append, List.length_singleton]
      exact hgt
    rw [get_of_le hout, get_of_le (Nat.le_of_lt hgt)]
    exact .inl rfl

/-! ## Groups with alternatives -/

/-- The groups have alternatives, and each of these has conditions. -/
def Admits (s : FilterStore) (groups : List (List FilterId)) : Prop :=
  ∀ g ∈ groups, g ≠ [] ∧ ∀ a ∈ g, (s.get a).isEmpty = false

/-- Each group of a store has alternatives, and each of these has conditions. -/
def IsGrouped (s : FilterStore) : Prop :=
  ∀ id, s.Admits (s.get id).groups

theorem isGrouped_empty : IsGrouped .empty := by
  intro id g hg
  cases hg

theorem Admits.append {s : FilterStore} {gs hs : List (List FilterId)} (h : s.Admits gs)
    (h' : s.Admits hs) : s.Admits (gs ++ hs) := fun g hg =>
  (List.mem_append.mp hg).elim (h g) (h' g)

theorem admits_nil (s : FilterStore) : s.Admits [] :=
  nofun

theorem IsGrouped.isClosed {s : FilterStore} (h : s.IsGrouped) : s.IsClosed := by
  intro c hc g hg a ha
  obtain ⟨id, hid⟩ := List.mem_iff_getElem?.mp hc
  have hget : s.get id = c := by rw [get, hid, Option.getD_some]
  exact lt_of_isEmpty ((h id g (hget ▸ hg)).2 a ha)

/-! ## Edits -/

/-- The store after edits: new cells, and further conditions for new cells and for cells that
    `own` holds of. -/
inductive Edited (own : FilterId → Prop) (s : FilterStore) : FilterStore → Prop
  | refl : Edited own s s
  | push {t : FilterStore} (h : Edited own s t) {c : FilterCell} (hc : t.Admits c.groups) :
    Edited own s (t.push c).2
  | extend {t : FilterStore} (h : Edited own s t) {id : FilterId}
    (hid : own id ∨ s.cells.length ≤ id) (constraints : List Constraint)
    {groups : List (List FilterId)} (hgroups : t.Admits groups) :
    Edited own s (t.modify id (·.extend constraints groups))

namespace Edited

variable {own : FilterId → Prop} {s t u : FilterStore}

theorem length_le (h : Edited own s t) : s.cells.length ≤ t.cells.length := by
  induction h with
  | refl => exact Nat.le_refl _
  | push _ _ ih =>
    rw [FilterStore.push, List.length_append]
    exact Nat.le_add_right_of_le ih
  | extend _ _ _ _ ih => rwa [length_modify]

theorem trans (h : Edited own s t) (h' : Edited own t u) : Edited own s u := by
  induction h' with
  | refl => exact h
  | push _ hc ih => exact .push ih hc
  | extend _ hid cs hgroups ih =>
    exact .extend ih (hid.imp_right (Nat.le_trans h.length_le)) cs hgroups

theorem mono {own' : FilterId → Prop} (hown : ∀ a, own a → own' a) (h : Edited own s t) :
    Edited own' s t := by
  induction h with
  | refl => exact .refl
  | push _ hc ih => exact .push ih hc
  | extend _ hid cs hgroups ih => exact .extend ih (hid.imp_left (hown _)) cs hgroups

/-- A cell that was there is left alone unless `own` holds of it. -/
theorem get_eq (h : Edited own s t) {a : FilterId} (ha : a < s.cells.length) (hout : ¬ own a) :
    t.get a = s.get a := by
  induction h with
  | refl => rfl
  | push h _ ih => rw [get_push_of_lt (Nat.lt_of_lt_of_le ha h.length_le), ih]
  | extend h hid _ _ ih =>
    rw [get_modify_of_ne, ih]
    rintro rfl
    exact hid.elim hout (Nat.not_le_of_lt ha)

/-- No cell loses its conditions. -/
theorem isEmpty_eq_false (h : Edited own s t) {a : FilterId}
    (ha : (s.get a).isEmpty = false) : (t.get a).isEmpty = false := by
  induction h with
  | refl => exact ha
  | push _ _ ih =>
    rw [get_push_of_lt (lt_of_isEmpty ih)]
    exact ih
  | @extend t _ id _ cs groups _ ih =>
    rcases get_modify_cases t id (·.extend cs groups) a with hget | ⟨_, hget⟩ <;> rw [hget]
    · exact ih
    · exact FilterCell.isEmpty_extend ih cs groups

theorem admits (h : Edited own s t) {gs : List (List FilterId)} (hgs : s.Admits gs) :
    t.Admits gs := fun g hg =>
  ⟨(hgs g hg).1, fun a ha => h.isEmpty_eq_false ((hgs g hg).2 a ha)⟩

/-- Groups keep their alternatives, and these keep their conditions. -/
theorem isGrouped (h : Edited own s t) (hs : s.IsGrouped) : t.IsGrouped := by
  induction h with
  | refl => exact hs
  | @push t _ c hc ih =>
    intro id
    have hpush : Edited own t (t.push c).2 := .push .refl hc
    rcases get_push_cases t c id with hget | ⟨_, hget⟩ <;> rw [hget]
    · exact hpush.admits (ih id)
    · exact hpush.admits hc
  | @extend t _ id _ cs groups hgroups ih =>
    intro a
    have hextend : Edited (fun _ => True) t (t.modify id (·.extend cs groups)) :=
      .extend .refl (.inl trivial) cs hgroups
    rcases get_modify_cases t id (·.extend cs groups) a with hget | ⟨_, hget⟩ <;> rw [hget]
    · exact hextend.admits (ih a)
    · exact hextend.admits ((ih a).append hgroups)

end Edited

/-! ## Building -/

theorem edited_push_empty (own : FilterId → Prop) (s : FilterStore) :
    Edited own s (s.push .empty).2 :=
  .push .refl (admits_nil s)

theorem edited_add {own : FilterId → Prop} {s t : FilterStore} {id : FilterId} (hid : own id)
    {field operator value : Value} (h : s.add id field operator value = .ok t) :
    Edited own s t := by
  obtain ⟨c, _, rfl⟩ := exists_of_map_eq_ok h
  have hextend : s.addConstraint id c = s.modify id (·.extend [c] []) := by
    simp only [addConstraint, FilterCell.extend, List.append_nil]
  rw [hextend]
  exact .extend .refl (.inl hid) [c] (admits_nil s)

/-- Whatever is offered, the group that is added is none of nothing. -/
theorem edited_addGroup {own : FilterId → Prop} {s t : FilterStore} (h : Edited own s t)
    {id : FilterId} (hid : own id ∨ s.cells.length ≤ id) (alternatives : List FilterId) :
    Edited own s (t.addGroup id alternatives) := by
  unfold addGroup
  split
  · exact h
  · rename_i hgroup
    have hadmits : t.Admits [alternatives.filter fun a => !(t.get a).isEmpty] := by
      intro g hg
      obtain rfl := List.mem_singleton.mp hg
      refine ⟨hgroup, fun a ha => ?_⟩
      simpa using List.of_mem_filter ha
    have hextend := h.extend hid [] hadmits
    simpa only [FilterCell.extend, List.append_nil] using hextend

end FilterStore

/-! ## Copying -/

/-- Each group of a filter, at any depth, has alternatives, and each of these has conditions. -/
inductive Filter.IsGrouped : Filter → Prop
  | mk {constraints : List Constraint} {groups : List (List Filter)}
    (hgroups : ∀ g ∈ groups, g ≠ [] ∧ ∀ a ∈ g, a.isEmpty = false)
    (hinner : ∀ g ∈ groups, ∀ a ∈ g, Filter.IsGrouped a) : Filter.IsGrouped (.mk constraints groups)

namespace FilterStore

/-- Filters that have conditions, as the cells do that stand for them. -/
theorem conditions_of_forall₂ {s : FilterStore} {fuel : Nat} {g : List FilterId}
    {fs : List Filter} (h : List.Forall₂ (fun a f => s.resolve? fuel a = some f) g fs) :
    (g ≠ [] ∧ ∀ a ∈ g, (s.get a).isEmpty = false) ↔ fs ≠ [] ∧ ∀ f ∈ fs, f.isEmpty = false := by
  refine and_congr (not_congr (eq_nil_iff_of_forall₂ h)) ?_
  exact forall_mem_iff_of_forall₂ h fun a f hf => by rw [isEmpty_of_resolve? hf]

/-- A cell stands for its constraints, and for groups of what its alternatives stand for. -/
theorem resolve?_succ_iff {s : FilterStore} {fuel : Nat} {id : FilterId} {f : Filter} :
    s.resolve? (fuel + 1) id = some f ↔ ∃ groups,
      List.Forall₂ (List.Forall₂ fun a f' => s.resolve? fuel a = some f') (s.get id).groups
        groups ∧ f = .mk (s.get id).constraints groups := by
  have hgroups : ∀ groups, (s.get id).groups.mapM (fun g => g.mapM (s.resolve? fuel)) =
      some groups ↔ List.Forall₂ (List.Forall₂ fun a f' => s.resolve? fuel a = some f')
        (s.get id).groups groups := fun groups => by
    simp only [mapM_eq_some_iff]
  rw [resolve?]
  constructor
  · intro h
    obtain ⟨groups, hmembers, hf⟩ := Option.bind_eq_some_iff.mp h
    exact ⟨groups, (hgroups groups).mp hmembers, (Option.some.inj hf).symm⟩
  · rintro ⟨groups, hmembers, rfl⟩
    exact Option.bind_eq_some_iff.mpr ⟨groups, (hgroups groups).mpr hmembers, rfl⟩

/-- A cell of a grouped store stands for a grouped filter. -/
theorem IsGrouped.filter {s : FilterStore} (hs : s.IsGrouped) {fuel : Nat} {id : FilterId}
    {f : Filter} (h : s.resolve? fuel id = some f) : f.IsGrouped := by
  induction fuel generalizing id f with
  | zero => cases h
  | succ fuel ih =>
    obtain ⟨groups, hmembers, rfl⟩ := resolve?_succ_iff.mp h
    refine .mk ?_ ?_
    · exact (forall_mem_iff_of_forall₂ hmembers fun g fs => conditions_of_forall₂).mp (hs id)
    · exact forall_mem_of_forall₂ hmembers fun g fs hfs => forall_mem_of_forall₂ hfs fun a f => ih

mutual

theorem edited_alloc (own : FilterId → Prop) (f : Filter) (hf : f.IsGrouped) (s : FilterStore) :
    Edited own s (alloc f s).2 := by
  cases hf with
  | @mk cs gs hgroups hinner =>
    obtain ⟨groups, cells, hadds, _, hresolve⟩ := allocGroups_adds gs s.cells.length
    have hedited := edited_allocGroups own gs hinner s
    have hrun := hadds.run s rfl
    rw [hrun] at hedited
    have hadmits : FilterStore.Admits ⟨s.cells ++ cells⟩ groups := by
      have hmembers := (mapM_eq_some_iff.mp (hresolve _ (holds_append s cells))).imp
        fun g fs => mapM_eq_some_iff.mp
      exact (forall_mem_iff_of_forall₂ hmembers fun g fs => conditions_of_forall₂).mpr hgroups
    rw [alloc, hrun]
    exact hedited.push hadmits

theorem edited_allocGroups (own : FilterId → Prop) (gs : List (List Filter))
    (hgs : ∀ g ∈ gs, ∀ f ∈ g, f.IsGrouped) (s : FilterStore) :
    Edited own s (allocGroups gs s).2 := by
  cases gs with
  | nil => exact .refl
  | cons g gs =>
    obtain ⟨hg, hgs⟩ := List.forall_mem_cons.mp hgs
    exact (edited_allocGroup own g hg s).trans (edited_allocGroups own gs hgs _)

theorem edited_allocGroup (own : FilterId → Prop) (fs : List Filter)
    (hfs : ∀ f ∈ fs, f.IsGrouped) (s : FilterStore) : Edited own s (allocGroup fs s).2 := by
  cases fs with
  | nil => exact .refl
  | cons f fs =>
    obtain ⟨hf, hfs⟩ := List.forall_mem_cons.mp hfs
    exact (edited_alloc own f hf s).trans (edited_allocGroup own fs hfs _)

end

/-- A copy has conditions when the filter has. -/
theorem edited_copy (own : FilterId → Prop) {s t : FilterStore} (hs : s.IsGrouped)
    {id new : FilterId} (h : s.copy id = .ok (new, t)) :
    Edited own s t ∧ (t.get new).isEmpty = (s.get id).isEmpty := by
  obtain ⟨f, hf, halloc⟩ := exists_of_copy h
  have hf' := resolve_eq_ok_iff.mp hf
  have hedited := edited_alloc own f (hs.filter hf') s
  have hcopy := isCopy_alloc f s
  rw [halloc] at hedited hcopy
  exact ⟨hedited, by rw [← isEmpty_of_resolve? hcopy.resolve?, isEmpty_of_resolve? hf']⟩

/-- Copies of filters with conditions have conditions. -/
theorem edited_copyAll (own : FilterId → Prop) {s t : FilterStore} (hs : s.IsGrouped)
    {ids news : List FilterId} (h : copyAll ids s = .ok (news, t)) :
    Edited own s t ∧ ((∀ a ∈ ids, (s.get a).isEmpty = false) →
      ∀ a ∈ news, (t.get a).isEmpty = false) ∧ news.length = ids.length := by
  induction ids generalizing s news with
  | nil =>
    cases h
    exact ⟨.refl, fun _ => List.forall_mem_nil _, rfl⟩
  | cons id ids ih =>
    obtain ⟨⟨new, s'⟩, hcopy, h⟩ := exists_of_bind_eq_ok h
    obtain ⟨⟨news, t'⟩, hcopies, h⟩ := exists_of_bind_eq_ok h
    cases h
    obtain ⟨hedited, hsame⟩ := edited_copy own hs hcopy
    obtain ⟨hedited', hnews, hlength⟩ := ih (hedited.isGrouped hs) hcopies
    refine ⟨hedited.trans hedited', fun hids => ?_, congrArg (· + 1) hlength⟩
    obtain ⟨hid, hids⟩ := List.forall_mem_cons.mp hids
    refine List.forall_mem_cons.mpr ⟨?_, hnews fun a ha => hedited.isEmpty_eq_false (hids a ha)⟩
    exact hedited'.isEmpty_eq_false (hsame.trans hid)

theorem edited_copyGroups (own : FilterId → Prop) {s t : FilterStore} (hs : s.IsGrouped)
    {gs news : List (List FilterId)} (hgs : s.Admits gs)
    (h : copyGroups gs s = .ok (news, t)) : Edited own s t ∧ t.Admits news := by
  induction gs generalizing s news with
  | nil =>
    cases h
    exact ⟨.refl, admits_nil _⟩
  | cons g gs ih =>
    obtain ⟨⟨new, s'⟩, hcopy, h⟩ := exists_of_bind_eq_ok h
    obtain ⟨⟨news, t'⟩, hcopies, h⟩ := exists_of_bind_eq_ok h
    cases h
    obtain ⟨⟨hne, hfull⟩, hgs⟩ := List.forall_mem_cons.mp hgs
    obtain ⟨hedited, hnew, hlength⟩ := edited_copyAll own hs hcopy
    obtain ⟨hedited', hnews⟩ := ih (hedited.isGrouped hs) (hedited.admits hgs) hcopies
    refine ⟨hedited.trans hedited', List.forall_mem_cons.mpr ⟨?_, hnews⟩⟩
    refine ⟨?_, fun a ha => hedited'.isEmpty_eq_false (hnew hfull a ha)⟩
    rintro rfl
    exact hne (List.eq_nil_of_length_eq_zero hlength.symm)

/-- The conditions of a filter are added to another one, with copies of its alternatives. -/
theorem edited_append {own : FilterId → Prop} {s t u : FilterStore} (hs : s.IsGrouped)
    (hst : Edited own s t) {target source : FilterId}
    (htarget : own target ∨ s.cells.length ≤ target) (h : t.append target source = .ok u) :
    Edited own s u := by
  obtain ⟨⟨groups, t'⟩, hcopies, h⟩ := exists_of_bind_eq_ok h
  cases h
  have ht := hst.isGrouped hs
  obtain ⟨hedited, hadmits⟩ := edited_copyGroups own ht (ht source) hcopies
  exact (hst.trans hedited).extend htarget _ hadmits

end FilterStore

end DocQuery
