-- SUMMARY: The filters that a filter leads to: nothing else matters to it, and without cycles each filter stands for something.
import DocQuery.Proofs.Filter.Edited
import Mathlib.Data.List.Perm.Subperm
import Mathlib.Logic.Relation

/-!
# Reach

A filter leads to its alternatives, to theirs, and so on. What it stands for and what it
compiles to depend on the cells that it leads to, and on nothing else. In a store where no
filter leads back into itself all chains of references end, so each filter stands for
something.
-/

namespace DocQuery

namespace FilterStore

/-! ## References -/

/-- A filter has another one among its alternatives. -/
def Refers (s : FilterStore) (a b : FilterId) : Prop :=
  ∃ g ∈ (s.get a).groups, b ∈ g

/-- A filter is another one or has it, at any depth, among its alternatives. -/
def LeadsTo (s : FilterStore) : FilterId → FilterId → Prop :=
  Relation.ReflTransGen s.Refers

/-- No filter has itself, at any depth, among its alternatives. -/
def IsAcyclic (s : FilterStore) : Prop :=
  ∀ a, ¬ Relation.TransGen s.Refers a a

/-- What holds of a filter and of the alternatives of all it holds of, holds of all that the
    filter leads to. -/
theorem LeadsTo.invariant {s : FilterStore} {P : FilterId → Prop} {a b : FilterId}
    (h : s.LeadsTo a b) (ha : P a) (hstep : ∀ c d, P c → s.Refers c d → P d) : P b := by
  induction h with
  | refl => exact ha
  | tail _ hrefers ih => exact hstep _ _ ih hrefers

theorem IsClosed.lt_of_leadsTo {s : FilterStore} (hs : s.IsClosed) {a b : FilterId}
    (ha : a < s.cells.length) (h : s.LeadsTo a b) : b < s.cells.length :=
  h.invariant ha fun c d _ ⟨g, hg, hd⟩ => by
    obtain ⟨cell, hcell, hg⟩ := mem_get hg
    exact hs cell hcell g hg d hd

/-- There are no cycles if all references go back to earlier cells. -/
theorem isAcyclic_of_lt {s : FilterStore} (h : ∀ a b, s.Refers a b → b < a) : s.IsAcyclic := by
  have hlt : ∀ a b, Relation.TransGen s.Refers a b → b < a := by
    intro a b hab
    induction hab with
    | single hrefers => exact h _ _ hrefers
    | tail _ hrefers ih => exact Nat.lt_trans (h _ _ hrefers) ih
  exact fun a ha => Nat.lt_irrefl a (hlt a a ha)

/-! ## Chains of references end -/

/-- Without cycles no chain visits a cell twice, so the cells that were not visited are enough
    fuel. -/
theorem IsAcyclic.exists_resolve? {s : FilterStore} (hs : s.IsAcyclic) {fuel : Nat}
    {visited : List FilterId} (hnodup : visited.Nodup) (hin : ∀ v ∈ visited, v < s.cells.length)
    {id : FilterId} (hpath : ∀ v ∈ visited, Relation.TransGen s.Refers v id)
    (hfuel : s.cells.length < fuel + visited.length) : ∃ f, s.resolve? fuel id = some f := by
  induction fuel generalizing visited id with
  | zero =>
    have hsubset : visited ⊆ List.range s.cells.length := fun v hv => List.mem_range.mpr (hin v hv)
    have hle := (hnodup.subperm hsubset).length_le
    rw [List.length_range] at hle
    omega
  | succ fuel ih =>
    by_cases hid : id < s.cells.length
    · have hnew : id ∉ visited := fun hmem => hs id (hpath id hmem)
      have hmember : ∀ g ∈ (s.get id).groups, ∀ a ∈ g, ∃ f, s.resolve? fuel a = some f := by
        intro g hg a ha
        have hrefers : s.Refers id a := ⟨g, hg, ha⟩
        refine ih (List.nodup_cons.mpr ⟨hnew, hnodup⟩) (List.forall_mem_cons.mpr ⟨hid, hin⟩)
          (List.forall_mem_cons.mpr ⟨.single hrefers, fun v hv => (hpath v hv).tail hrefers⟩) ?_
        rw [List.length_cons]
        omega
      obtain ⟨groups, hgroups⟩ := exists_forall₂ fun g hg => exists_forall₂ (hmember g hg)
      exact ⟨_, resolve?_succ_iff.mpr ⟨groups, hgroups, rfl⟩⟩
    · have hcell := get_of_le (Nat.le_of_not_lt hid)
      refine ⟨.mk [] [], resolve?_succ_iff.mpr ⟨[], ?_, by rw [hcell]; rfl⟩⟩
      rw [hcell]
      exact .nil

theorem IsAcyclic.exists_resolve {s : FilterStore} (hs : s.IsAcyclic) (id : FilterId) :
    ∃ f, s.resolve id = .ok f := by
  obtain ⟨f, hf⟩ : ∃ f, s.resolve? (s.cells.length + 1) id = some f :=
    hs.exists_resolve? List.nodup_nil (List.forall_mem_nil _) (List.forall_mem_nil _)
      (Nat.lt_succ_self _)
  exact ⟨f, resolve_eq_ok_iff.mpr hf⟩

/-! ## Compiling what a cell stands for -/

end FilterStore

namespace Filter

theorem compileGroup_eq_mapM (fs : List Filter) :
    compileGroup fs = fs.mapM fun f => f.compile.map Value.object := by
  induction fs with
  | nil => rfl
  | cons f fs ih =>
    rw [compileGroup, List.mapM_cons, ← ih]
    cases f.compile <;> rfl

theorem compileGroups_eq_mapM (gs : List (List Filter)) :
    compileGroups gs = gs.mapM compileGroup := by
  induction gs with
  | nil => rfl
  | cons g gs ih =>
    rw [compileGroups, List.mapM_cons, ← ih]
    rfl

end Filter

namespace FilterStore

/-- The body of a cell is that of the filter that it stands for. -/
theorem compileWithin_eq {s : FilterStore} {fuel : Nat} {id : FilterId} {f : Filter}
    (h : s.resolve? fuel id = some f) : s.compileWithin fuel id = f.compile := by
  induction fuel generalizing id f with
  | zero => cases h
  | succ fuel ih =>
    obtain ⟨groups, hmembers, rfl⟩ := resolve?_succ_iff.mp h
    have hgroups : ((s.get id).groups.mapM fun group =>
        group.mapM fun a => (s.compileWithin fuel a).map Value.object) =
          groups.mapM Filter.compileGroup := by
      refine mapM_eq_of_forall₂ (hmembers.imp fun g fs hfs => ?_)
      rw [Filter.compileGroup_eq_mapM]
      exact mapM_eq_of_forall₂ (hfs.imp fun a f' hf' => congrArg _ (ih hf'))
    rw [compileWithin, Filter.compile, Filter.compileGroups_eq_mapM, hgroups]

theorem compile_eq {s : FilterStore} {id : FilterId} {f : Filter} (h : s.resolve id = .ok f) :
    s.compile id = f.compile :=
  compileWithin_eq (resolve_eq_ok_iff.mp h)

/-! ## Nothing else matters -/

/-- A filter stands for what it stood for as long as the cells that it leads to are the same. -/
theorem resolve_of_sameCells {s t : FilterStore} (hle : s.cells.length ≤ t.cells.length)
    {id : FilterId} {f : Filter} (hf : s.resolve id = .ok f)
    (hsame : ∀ a, s.LeadsTo id a → t.get a = s.get a) : t.resolve id = .ok f := by
  refine resolve_eq_ok_iff.mpr (resolve?_mono (Nat.succ_le_succ hle) ?_)
  rw [resolve?_congr hsame (fun a ha g hg b hb => ha.tail ⟨g, hg, hb⟩) _ .refl]
  exact resolve_eq_ok_iff.mp hf

end FilterStore

end DocQuery
