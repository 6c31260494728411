-- SUMMARY: Filters as callers build them: their groups are never empty, and they compile when their constraints do.
import DocQuery.Filter.Store
import DocQuery.Proofs.Except

/-!
# Built filters

Callers start from empty filters and add constraints and groups. So no group is ever
without alternatives. A filter that does not lead back into itself compiles when all
constraints in it compile, and its body is made of theirs.
-/

namespace DocQuery

/-- All constraints of a filter and of its alternatives compile. -/
inductive Filter.Compiles : Filter → Prop
  | mk {constraints : List Constraint} {groups : List (List Filter)}
    (hconstraints : ∀ c ∈ constraints, ∃ doc, c.compile = .ok doc)
    (hgroups : ∀ g ∈ groups, ∀ a ∈ g, Filter.Compiles a) :
    Filter.Compiles (.mk constraints groups)

namespace FilterStore

/-! ## Building -/

/-- The store has been built by making filters and adding constraints and groups to them. -/
inductive Built : FilterStore → Prop
  | empty : Built .empty
  | new {s : FilterStore} (h : Built s) : Built (s.push .empty).2
  | add {s t : FilterStore} (h : Built s) {id : FilterId} {field operator value : Value}
    (hadd : s.add id field operator value = .ok t) : Built t
  | addGroup {s : FilterStore} (h : Built s) (id : FilterId) (alternatives : List FilterId) :
    Built (s.addGroup id alternatives)

theorem mem_modify {s : FilterStore} {id : FilterId} {f : FilterCell → FilterCell}
    {c : FilterCell} (h : c ∈ (s.modify id f).cells) :
    c ∈ s.cells ∨ ∃ c' ∈ s.cells, c = f c' := by
  obtain ⟨i, hi⟩ := List.mem_iff_getElem?.mp h
  rw [modify, List.getElem?_modify] at hi
  cases hcell : s.cells[i]? with
  | none =>
    rw [hcell] at hi
    cases hi
  | some c' =>
    have hmem := List.mem_of_getElem? hcell
    rw [hcell] at hi
    split at hi <;> cases hi
    · exact .inr ⟨c', hmem, rfl⟩
    · exact .inl hmem

/-- Each cell's groups have alternatives. -/
def GroupsGiven (s : FilterStore) : Prop :=
  ∀ c ∈ s.cells, ∀ g ∈ c.groups, g ≠ []

theorem groupsGiven_of_built {s : FilterStore} (h : Built s) : s.GroupsGiven := by
  induction h with
  | empty =>
    intro c hc
    cases hc
  | new _ ih =>
    intro c hc g hg
    simp only [push, List.mem_append, List.mem_singleton] at hc
    rcases hc with hc | rfl
    · exact ih c hc g hg
    · cases hg
  | @add s t _ id field operator value hadd ih =>
    obtain ⟨constraint, _, rfl⟩ := exists_of_map_eq_ok hadd
    intro c hc g hg
    rcases mem_modify hc with hc | ⟨c', hc', rfl⟩
    · exact ih c hc g hg
    · exact ih c' hc' g hg
  | @addGroup s _ id alternatives ih =>
    intro c hc g hg
    unfold FilterStore.addGroup at hc
    split at hc
    · exact ih c hc g hg
    · rename_i hgroup
      rcases mem_modify hc with hc | ⟨c', hc', rfl⟩
      · exact ih c hc g hg
      · simp only [List.mem_append, List.mem_singleton] at hg
        rcases hg with hg | rfl
        · exact ih c' hc' g hg
        · exact hgroup

theorem groups_ne_nil {s : FilterStore} (h : Built s) {id : FilterId} {g : List FilterId}
    (hg : g ∈ (s.get id).groups) : g ≠ [] := by
  unfold get at hg
  cases hcell : s.cells[id]? with
  | none =>
    rw [hcell] at hg
    cases hg
  | some c =>
    rw [hcell] at hg
    exact groupsGiven_of_built h c (List.mem_of_getElem? hcell) g hg

/-! ## Compiling -/

/-- What a cell compiles to, in terms of what its alternatives compile to. -/
structure BodyOf (s : FilterStore) (member : FilterId → Except Error MatchBody) (id : FilterId)
    (docs : List (String × OperatorDoc)) (groups : List (List Value)) : Prop where
  docs : (s.get id).constraints.mapM Constraint.compile = .ok docs
  groups : List.Forall₂ (List.Forall₂ fun a v => ∃ b, member a = .ok b ∧ v = .object b)
    (s.get id).groups groups

theorem compileWithin_of_parts {s : FilterStore} {fuel : Nat} {id : FilterId}
    {docs : List (String × OperatorDoc)} {groups : List (List Value)}
    (hdocs : (s.get id).constraints.mapM Constraint.compile = .ok docs)
    (hgroups : ((s.get id).groups.mapM fun group =>
      group.mapM fun a => (s.compileWithin fuel a).map Value.object) = .ok groups) :
    s.compileWithin (fuel + 1) id =
      .ok (Filter.withGroups (Filter.conjunction docs) groups) := by
  unfold compileWithin
  simp only [hdocs, hgroups]
  rfl

/-- The body of a filter without groups is made of its constraints. -/
theorem compile_of_constraints {s : FilterStore} {id : FilterId} {constraints : List Constraint}
    {docs : List (String × OperatorDoc)} (hcell : s.get id = ⟨constraints, []⟩)
    (hdocs : constraints.mapM Constraint.compile = .ok docs) :
    s.compile id = .ok (Filter.conjunction docs) := by
  show s.compileWithin _ id = .ok (Filter.withGroups (Filter.conjunction docs) [])
  refine compileWithin_of_parts ?_ ?_
  · rw [hcell, hdocs]
  · rw [hcell]
    rfl

theorem compileWithin_succ_iff {s : FilterStore} {fuel : Nat} {id : FilterId} {body : MatchBody} :
    s.compileWithin (fuel + 1) id = .ok body ↔ ∃ docs groups,
      BodyOf s (s.compileWithin fuel) id docs groups ∧
        body = Filter.withGroups (Filter.conjunction docs) groups := by
  have hmember : ∀ {a : FilterId} {v : Value}, (s.compileWithin fuel a).map Value.object = .ok v ↔
      ∃ b, s.compileWithin fuel a = .ok b ∧ v = .object b := by
    intro a v
    constructor
    · intro h
      obtain ⟨b, hb, hv⟩ := exists_of_map_eq_ok h
      exact ⟨b, hb, hv.symm⟩
    · rintro ⟨b, hb, rfl⟩
      rw [hb]
      rfl
  constructor
  · intro h
    unfold compileWithin at h
    obtain ⟨docs, hdocs, h⟩ := exists_of_bind_eq_ok h
    obtain ⟨groups, hgroups, h⟩ := exists_of_bind_eq_ok h
    cases h
    refine ⟨docs, groups, ⟨hdocs, ?_⟩, rfl⟩
    refine (mapM_eq_ok_iff.mp hgroups).imp fun g vs hvs => ?_
    exact (mapM_eq_ok_iff.mp hvs).imp fun a v => hmember.mp
  · rintro ⟨docs, groups, hbody, rfl⟩
    refine compileWithin_of_parts hbody.docs ?_
    refine mapM_eq_ok_iff.mpr (hbody.groups.imp fun g vs hvs => ?_)
    exact mapM_eq_ok_iff.mpr (hvs.imp fun a v => hmember.mpr)

/-- More fuel changes no body. -/
theorem compileWithin_succ {s : FilterStore} {fuel : Nat} {id : FilterId} {body : MatchBody}
    (h : s.compileWithin fuel id = .ok body) : s.compileWithin (fuel + 1) id = .ok body := by
  induction fuel generalizing id body with
  | zero => cases h
  | succ fuel ih =>
    obtain ⟨docs, groups, hbody, rfl⟩ := compileWithin_succ_iff.mp h
    refine compileWithin_succ_iff.mpr ⟨docs, groups, ⟨hbody.docs, ?_⟩, rfl⟩
    refine hbody.groups.imp fun g vs hvs => hvs.imp fun a v => ?_
    rintro ⟨b, hb, rfl⟩
    exact ⟨b, ih hb, rfl⟩

theorem resolve?_succ {s : FilterStore} {fuel : Nat} {id : FilterId} {f : Filter}
    (h : s.resolve? (fuel + 1) id = some f) : f.constraints = (s.get id).constraints ∧
      ∀ g ∈ (s.get id).groups, ∃ g' ∈ f.groups, ∀ a ∈ g, ∃ a' ∈ g',
        s.resolve? fuel a = some a' := by
  unfold resolve? at h
  obtain ⟨groups, hgroups, hf⟩ := Option.bind_eq_some_iff.mp h
  cases hf
  refine ⟨rfl, fun g hg => ?_⟩
  obtain ⟨g', hg', hresolve⟩ := exists_mem_of_mapM_eq_some hgroups g hg
  exact ⟨g', hg', exists_mem_of_mapM_eq_some hresolve⟩

/-- A filter compiles when all constraints in it do. -/
theorem exists_compileWithin {s : FilterStore} {fuel : Nat} {id : FilterId} {f : Filter}
    (h : s.resolve? fuel id = some f) (hcompiles : f.Compiles) :
    ∃ body, s.compileWithin fuel id = .ok body := by
  induction fuel generalizing id f with
  | zero => cases h
  | succ fuel ih =>
    obtain ⟨hconstraints, hgroups⟩ := resolve?_succ h
    cases hcompiles with
    | mk hown hinner =>
      simp only [Filter.constraints] at hconstraints
      rw [hconstraints] at hown
      obtain ⟨docs, hdocs⟩ := exists_mapM_eq_ok hown
      obtain ⟨groups, hbodies⟩ : ∃ groups, (s.get id).groups.mapM (fun group =>
          group.mapM fun a => (s.compileWithin fuel a).map Value.object) = .ok groups := by
        refine exists_mapM_eq_ok fun g hg => exists_mapM_eq_ok fun a ha => ?_
        obtain ⟨g', hg', halternatives⟩ := hgroups g hg
        obtain ⟨a', ha', hresolve⟩ := halternatives a ha
        obtain ⟨b, hb⟩ := ih hresolve (hinner g' hg' a' ha')
        exact ⟨.object b, by rw [hb]; rfl⟩
      exact ⟨_, compileWithin_of_parts hdocs hbodies⟩

/-- The body of a filter is made of its own constraints and the bodies of its alternatives. -/
theorem exists_compile {s : FilterStore} {id : FilterId} {f : Filter}
    (h : s.resolve id = .ok f) (hcompiles : f.Compiles) : ∃ docs groups,
      s.compile id = .ok (Filter.withGroups (Filter.conjunction docs) groups) ∧
        BodyOf s s.compile id docs groups := by
  have hresolve : s.resolve? (s.cells.length + 1) id = some f := by
    unfold resolve at h
    split at h
    · rename_i hf
      cases h
      exact hf
    · cases h
  obtain ⟨body, hbody⟩ := exists_compileWithin hresolve hcompiles
  obtain ⟨docs, groups, hparts, rfl⟩ := compileWithin_succ_iff.mp hbody
  refine ⟨docs, groups, hbody, hparts.docs, ?_⟩
  refine hparts.groups.imp fun g vs hvs => hvs.imp fun a v => ?_
  rintro ⟨b, hb, rfl⟩
  exact ⟨b, compileWithin_succ hb, rfl⟩

end FilterStore

end DocQuery
