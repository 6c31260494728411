-- SUMMARY: The store's groups: one for each key, with the rows that have it.
import DocQuery.Proofs.Group.Key
import DocQuery.Proofs.Store
import Mathlib.Algebra.GroupWithZero.Nat
import Mathlib.Data.List.Perm.Basic

/-!
# Gathered rows

Rows are gathered one after the other. After each row there is one group for each key that
occurred, and it has the rows with that key in the order in which they came.
-/

namespace DocQuery.Store

open Value (IsKey)

/-! ## One row -/

theorem frozen_of_isKey {v : Value} (h : v.IsKey) : frozen v = v := by
  cases h <;> rfl

theorem join_cons {key row : Value} {g : Value × List Value} {groups : List (Value × List Value)}
    (hkey : key.IsKey) (hg : g.1.IsKey) : join key row (g :: groups) =
      if g.1.meaning = key.meaning then (g.1, g.2 ++ [row]) :: groups
      else g :: join key row groups := by
  obtain ⟨k, members⟩ := g
  rw [join, frozen_of_isKey hg, frozen_of_isKey hkey, hg.beq_eq_decide hkey]
  simp only [decide_eq_true_eq]

/-- A row with a new key begins a group. -/
theorem join_of_not_mem {key row : Value} {groups : List (Value × List Value)}
    (hkey : key.IsKey) (hgroups : ∀ g ∈ groups, g.1.IsKey)
    (hnew : key.meaning ∉ groups.map (·.1.meaning)) :
    join key row groups = groups ++ [(key, [row])] := by
  induction groups with
  | nil => rfl
  | cons g groups ih =>
    obtain ⟨hg, hrest⟩ := List.forall_mem_cons.mp hgroups
    rw [List.map_cons, List.mem_cons, not_or] at hnew
    rw [join_cons hkey hg, if_neg (Ne.symm hnew.1), ih hrest hnew.2, List.cons_append]

/-- A group after a row with a key. -/
def joined (key row : Value) (g : Value × List Value) : Value × List Value :=
  if g.1.meaning = key.meaning then (g.1, g.2 ++ [row]) else g

theorem joined_fst (key row : Value) (g : Value × List Value) : (joined key row g).1 = g.1 := by
  unfold joined
  split <;> rfl

/-- A row with a known key joins the group of that key. -/
theorem join_of_mem {key row : Value} {groups : List (Value × List Value)}
    (hkey : key.IsKey) (hgroups : ∀ g ∈ groups, g.1.IsKey)
    (hnodup : (groups.map (·.1.meaning)).Nodup) (hmem : key.meaning ∈ groups.map (·.1.meaning)) :
    join key row groups = groups.map (joined key row) := by
  induction groups with
  | nil => cases hmem
  | cons g groups ih =>
    obtain ⟨hg, hrest⟩ := List.forall_mem_cons.mp hgroups
    rw [List.map_cons, List.nodup_cons] at hnodup
    rw [join_cons hkey hg, List.map_cons, joined]
    by_cases heq : g.1.meaning = key.meaning
    · rw [if_pos heq, if_pos heq]
      have hothers : groups.map (joined key row) = groups := by
        refine List.map_congr_left (fun h hh => ?_) |>.trans (List.map_id groups)
        refine if_neg fun heq' => hnodup.1 ?_
        rw [heq, ← heq']
        exact List.mem_map_of_mem hh
      rw [hothers]
    · rw [if_neg heq, if_neg heq]
      have htail : key.meaning ∈ groups.map (·.1.meaning) :=
        (List.mem_cons.mp hmem).resolve_left (Ne.symm heq)
      rw [ih hrest hnodup.2 htail]

theorem sum_lengths_join (key row : Value) (groups : List (Value × List Value)) :
    ((join key row groups).map (·.2.length)).sum = (groups.map (·.2.length)).sum + 1 := by
  induction groups with
  | nil => rfl
  | cons g groups ih =>
    obtain ⟨k, members⟩ := g
    rw [join]
    split
    · simp only [List.map_cons, List.sum_cons, List.length_append, List.length_singleton]
      omega
    · simp only [List.map_cons, List.sum_cons, ih]
      omega

/-! ## All rows -/

/-- The rows with a key. -/
def rowsOf (keyed : List (Value × Value)) (key : Value) : List Value :=
  (keyed.filter fun x => x.1 == key).map (·.2)

/-- The groups of rows with keys. -/
structure AreGathered (keyed : List (Value × Value)) (groups : List (Value × List Value)) :
    Prop where
  differ : (groups.map (·.1.meaning)).Nodup
  occurs : ∀ g ∈ groups, g.1 ∈ keyed.map (·.1)
  covers : ∀ x ∈ keyed, x.1.meaning ∈ groups.map (·.1.meaning)
  members : ∀ g ∈ groups, g.2 = rowsOf keyed g.1
  total : (groups.map (·.2.length)).sum = keyed.length

namespace AreGathered

variable {keyed : List (Value × Value)} {groups : List (Value × List Value)}

theorem isKey (h : AreGathered keyed groups) (hkeyed : ∀ x ∈ keyed, x.1.IsKey) :
    ∀ g ∈ groups, g.1.IsKey := by
  intro g hg
  obtain ⟨x, hx, hkey⟩ := List.mem_map.mp (h.occurs g hg)
  rw [← hkey]
  exact hkeyed x hx

theorem rowsOf_append {x : Value × Value} {key : Value} (hx : x.1.IsKey) (hkey : key.IsKey) :
    rowsOf (keyed ++ [x]) key =
      if key.meaning = x.1.meaning then rowsOf keyed key ++ [x.2] else rowsOf keyed key := by
  rw [rowsOf, List.filter_append, List.map_append, ← rowsOf, List.filter_singleton,
    hx.beq_eq_decide hkey]
  by_cases heq : key.meaning = x.1.meaning
  · simp [heq]
  · simp [heq, Ne.symm heq]

/-- Groups stay those of the rows when one more row joins them. -/
theorem join (h : AreGathered keyed groups) (hkeyed : ∀ x ∈ keyed, x.1.IsKey)
    {x : Value × Value} (hx : x.1.IsKey) :
    AreGathered (keyed ++ [x]) (Store.join x.1 x.2 groups) := by
  have hgroups := h.isKey hkeyed
  have htotal : ((Store.join x.1 x.2 groups).map (·.2.length)).sum = (keyed ++ [x]).length := by
    rw [sum_lengths_join, h.total, List.length_append, List.length_singleton]
  by_cases hmem : x.1.meaning ∈ groups.map (·.1.meaning)
  · have hmeanings : (groups.map (joined x.1 x.2)).map (·.1.meaning) =
        groups.map (·.1.meaning) := by
      rw [List.map_map]
      exact List.map_congr_left fun g _ => congrArg Value.meaning (joined_fst x.1 x.2 g)
    rw [join_of_mem hx hgroups h.differ hmem] at htotal ⊢
    refine ⟨hmeanings ▸ h.differ, fun g hg => ?_, fun y hy => ?_, fun g hg => ?_, htotal⟩
    · obtain ⟨old, hold, rfl⟩ := List.mem_map.mp hg
      rw [joined_fst, List.map_append]
      exact List.mem_append_left _ (h.occurs old hold)
    · rw [hmeanings]
      rcases List.mem_append.mp hy with hy | hy
      · exact h.covers y hy
      · rw [List.mem_singleton.mp hy]
        exact hmem
    · obtain ⟨old, hold, rfl⟩ := List.mem_map.mp hg
      rw [joined_fst, rowsOf_append hx (hgroups old hold), ← h.members old hold, joined]
      split <;> rfl
  · rw [join_of_not_mem hx hgroups hmem] at htotal ⊢
    have hdiffer : ∀ g ∈ groups, g.1.meaning ≠ x.1.meaning := by
      intro g hg heq
      exact hmem (heq ▸ List.mem_map_of_mem hg)
    refine ⟨?_, fun g hg => ?_, fun y hy => ?_, fun g hg => ?_, htotal⟩
    · rw [List.map_append, List.nodup_append]
      refine ⟨h.differ, List.nodup_singleton _, fun m hm m' hm' => ?_⟩
      rw [List.mem_singleton.mp hm']
      rintro rfl
      exact hmem hm
    · rw [List.map_append, List.mem_append]
      rcases List.mem_append.mp hg with hg | hg
      · exact .inl (h.occurs g hg)
      · rw [List.mem_singleton.mp hg]
        exact .inr (List.mem_singleton.mpr rfl)
    · rw [List.map_append, List.mem_append]
      rcases List.mem_append.mp hy with hy | hy
      · exact .inl (h.covers y hy)
      · rw [List.mem_singleton.mp hy]
        exact .inr (List.mem_singleton.mpr rfl)
    · rcases List.mem_append.mp hg with hg | hg
      · rw [rowsOf_append hx (hgroups g hg), if_neg (hdiffer g hg)]
        exact h.members g hg
      · have hnone : rowsOf keyed x.1 = [] := by
          rw [rowsOf, List.map_eq_nil_iff, List.filter_eq_nil_iff]
          intro y hy hbeq
          exact hmem (((hkeyed y hy).beq_iff hx).mp hbeq ▸ h.covers y hy)
        obtain rfl := List.mem_singleton.mp hg
        rw [rowsOf_append hx hx, if_pos rfl, hnone]
        rfl

/-- Rows with the same keys, in whatever order, fall into groups with the same keys. -/
theorem meanings_perm (h : AreGathered keyed groups) {keyed' : List (Value × Value)}
    {groups' : List (Value × List Value)} (h' : AreGathered keyed' groups')
    (hperm : keyed'.Perm keyed) :
    (groups'.map (·.1.meaning)).Perm (groups.map (·.1.meaning)) := by
  have hsub : ∀ {keyed keyed' : List (Value × Value)} {groups groups' : List (Value × List Value)},
      AreGathered keyed groups → AreGathered keyed' groups' → keyed'.Perm keyed →
      ∀ m ∈ groups'.map (·.1.meaning), m ∈ groups.map (·.1.meaning) := by
    intro keyed keyed' groups groups' h h' hperm m hm
    obtain ⟨g, hg, rfl⟩ := List.mem_map.mp hm
    obtain ⟨x, hx, hkey⟩ := List.mem_map.mp (h'.occurs g hg)
    rw [← hkey]
    exact h.covers x (hperm.subset hx)
  exact (List.perm_ext_iff_of_nodup h'.differ h.differ).mpr fun m =>
    ⟨hsub h h' hperm m, hsub h' h hperm.symm m⟩

/-- No two keys of groups are equal. -/
theorem keys_differ (h : AreGathered keyed groups) (hkeyed : ∀ x ∈ keyed, x.1.IsKey) :
    (groups.map (·.1)).Pairwise fun a b => (a == b) = false := by
  have hgroups := h.isKey hkeyed
  have hdiffer := List.pairwise_map.mp h.differ
  rw [List.pairwise_map]
  refine hdiffer.imp_of_mem fun {g g'} hg hg' hne => ?_
  rw [(hgroups g hg).beq_eq_decide (hgroups g' hg')]
  exact decide_eq_false hne

theorem length_given (h : AreGathered keyed groups) (hkeyed : ∀ x ∈ keyed, x.1.IsKey) :
    ((groups.map (·.1)).filter fun k => !k.isNull).length =
      ((groups.map (·.1.meaning)).filter (· ≠ .nothing)).length := by
  rw [List.filter_map, List.filter_map, List.length_map, List.length_map]
  refine congrArg List.length (List.filter_congr fun g hg => ?_)
  simp [(h.isKey hkeyed g hg).isNull_eq_decide]

end AreGathered

theorem areGathered_gather {keyed : List (Value × Value)} (h : ∀ x ∈ keyed, x.1.IsKey) :
    AreGathered keyed (gather keyed) := by
  induction keyed using List.reverseRecOn with
  | nil => exact ⟨.nil, by simp [gather], by simp, by simp [gather], rfl⟩
  | append_singleton keyed x ih =>
    have hkeyed : ∀ y ∈ keyed, y.1.IsKey := fun y hy => h y (List.mem_append_left _ hy)
    have hx : x.1.IsKey := h x (List.mem_append_right _ (List.mem_singleton.mpr rfl))
    have hstep : gather (keyed ++ [x]) = join x.1 x.2 (gather keyed) := by
      rw [gather, List.foldl_append]
      rfl
    rw [hstep]
    exact (ih hkeyed).join hkeyed hx

end DocQuery.Store
