-- SUMMARY: What a filter stands for depends on the cells it leads to, and copies are new cells behind the others.
import DocQuery.Proofs.Filter.Store

/-!
# Sharing

What a filter stands for depends on its own cell and on the cells that it leads to. Copies are
put into new cells behind all others, and these refer to each other only. So a copy stands
for what it was made of whatever becomes of the cells before it, and a change of one cell
leaves every filter alone that does not lead there.
-/

namespace DocQuery.FilterStore

/-! ## Following references -/

/-- More fuel changes no filter. -/
theorem resolve?_mono {s : FilterStore} {fuel k : Nat} (hle : fuel ≤ k) {id : FilterId}
    {f : Filter} (h : s.resolve? fuel id = some f) : s.resolve? k id = some f := by
  induction fuel generalizing k id f with
  | zero => cases h
  | succ fuel ih =>
    obtain ⟨k, rfl⟩ := Nat.exists_eq_add_one_of_ne_zero (by omega : k ≠ 0)
    unfold resolve? at h ⊢
    obtain ⟨groups, hgroups, hf⟩ := Option.bind_eq_some_iff.mp h
    refine Option.bind_eq_some_iff.mpr ⟨groups, ?_, hf⟩
    refine mapM_eq_some_iff.mpr ((mapM_eq_some_iff.mp hgroups).imp fun g fs hfs => ?_)
    exact mapM_eq_some_iff.mpr ((mapM_eq_some_iff.mp hfs).imp fun a f' =>
      ih (Nat.le_of_succ_le_succ hle))

theorem resolve?_group_mono {s : FilterStore} {fuel k : Nat} (hle : fuel ≤ k)
    {g : List FilterId} {fs : List Filter} (h : g.mapM (s.resolve? fuel) = some fs) :
    g.mapM (s.resolve? k) = some fs :=
  mapM_eq_some_iff.mpr ((mapM_eq_some_iff.mp h).imp fun _ _ => resolve?_mono hle)

theorem resolve?_groups_mono {s : FilterStore} {fuel k : Nat} (hle : fuel ≤ k)
    {gs : List (List FilterId)} {fss : List (List Filter)}
    (h : gs.mapM (fun g => g.mapM (s.resolve? fuel)) = some fss) :
    gs.mapM (fun g => g.mapM (s.resolve? k)) = some fss :=
  mapM_eq_some_iff.mpr ((mapM_eq_some_iff.mp h).imp fun _ _ => resolve?_group_mono hle)

/-- Two stores that agree on some places which no reference leads out of have the same filters
    there. -/
theorem resolve?_congr {s t : FilterStore} {P : FilterId → Prop}
    (hcell : ∀ id, P id → t.get id = s.get id)
    (hinner : ∀ id, P id → ∀ g ∈ (s.get id).groups, ∀ a ∈ g, P a) (fuel : Nat) {id : FilterId}
    (hid : P id) : t.resolve? fuel id = s.resolve? fuel id := by
  induction fuel generalizing id with
  | zero => rfl
  | succ fuel ih =>
    have hgroups : (s.get id).groups.mapM (fun g => g.mapM (t.resolve? fuel)) =
        (s.get id).groups.mapM fun g => g.mapM (s.resolve? fuel) :=
      mapM_congr fun g hg => mapM_congr fun a ha => ih (hinner id hid g hg a ha)
    rw [resolve?, resolve?, hcell id hid, hgroups]

theorem resolve_eq_ok_iff {s : FilterStore} {id : FilterId} {f : Filter} :
    s.resolve id = .ok f ↔ s.resolve? (s.cells.length + 1) id = some f := by
  unfold resolve
  cases s.resolve? (s.cells.length + 1) id <;> simp

/-- A filter has conditions when its cell has some. -/
theorem isEmpty_of_resolve? {s : FilterStore} {fuel : Nat} {id : FilterId} {f : Filter}
    (h : s.resolve? fuel id = some f) : f.isEmpty = (s.get id).isEmpty := by
  cases fuel with
  | zero => cases h
  | succ fuel =>
    rw [resolve?] at h
    obtain ⟨groups, hgroups, hf⟩ := Option.bind_eq_some_iff.mp h
    cases hf
    have hlength := (mapM_eq_some_iff.mp hgroups).length_eq
    have hnone : groups.isEmpty = (s.get id).groups.isEmpty := by
      rw [Bool.eq_iff_iff, List.isEmpty_iff_length_eq_zero, List.isEmpty_iff_length_eq_zero,
        hlength]
    rw [Filter.isEmpty, FilterCell.isEmpty, Filter.constraints, Filter.groups, hnone]

/-! ## New cells -/

/-- Some cells stand in a store from a place on. -/
def Holds (s : FilterStore) (n : Nat) (cells : List FilterCell) : Prop :=
  ∀ i c, cells[i]? = some c → s.cells[n + i]? = some c

theorem Holds.append {s : FilterStore} {n : Nat} {cs ds : List FilterCell}
    (h : s.Holds n (cs ++ ds)) : s.Holds n cs ∧ s.Holds (n + cs.length) ds := by
  refine ⟨fun i c hi => h i c ?_, fun i c hi => ?_⟩
  · rw [List.getElem?_append_left (List.getElem?_eq_some_iff.mp hi).1, hi]
  · rw [Nat.add_assoc]
    refine h (cs.length + i) c ?_
    rw [List.getElem?_append_right (Nat.le_add_right _ _), Nat.add_sub_cancel_left, hi]

theorem Holds.get_eq {s : FilterStore} {n : Nat} {cells : List FilterCell} {c : FilterCell}
    (h : s.Holds n (cells ++ [c])) : s.get (n + cells.length) = c := by
  have hlast := h.append.2 0 c rfl
  rw [Nat.add_zero] at hlast
  rw [FilterStore.get, hlast, Option.getD_some]

theorem holds_append (s : FilterStore) (cells : List FilterCell) :
    FilterStore.Holds ⟨s.cells ++ cells⟩ s.cells.length cells := by
  intro i c hi
  show (s.cells ++ cells)[s.cells.length + i]? = some c
  rw [List.getElem?_append_right (Nat.le_add_right _ _), Nat.add_sub_cancel_left, hi]

/-- The place is that of one of some new cells behind the first `n`. -/
def IsNew (n : Nat) (cells : List FilterCell) (a : Nat) : Prop :=
  n ≤ a ∧ a < n + cells.length

theorem IsNew.appendLeft {n : Nat} {cs : List FilterCell} {a : Nat} (h : IsNew n cs a)
    (ds : List FilterCell) : IsNew n (cs ++ ds) a := by
  refine ⟨h.1, Nat.lt_of_lt_of_le h.2 ?_⟩
  rw [List.length_append]
  exact Nat.add_le_add_left (Nat.le_add_right _ _) n

theorem IsNew.appendRight {n : Nat} {cs ds : List FilterCell} {a : Nat}
    (h : IsNew (n + cs.length) ds a) : IsNew n (cs ++ ds) a := by
  obtain ⟨hle, hlt⟩ := h
  rw [IsNew, List.length_append]
  omega

/-- Running `act` on any store of `n` cells puts `cells` behind them, which refer to each other
    only, and yields `place`. -/
structure Adds {α : Type} (act : FilterStore → α × FilterStore) (n : Nat) (place : α)
    (cells : List FilterCell) : Prop where
  run : ∀ s, s.cells.length = n → act s = (place, ⟨s.cells ++ cells⟩)
  inner : ∀ c ∈ cells, ∀ g ∈ c.groups, ∀ a ∈ g, IsNew n cells a

/-- Adding twice puts the cells one after the other. -/
theorem Adds.bind {α β γ : Type} {act : FilterStore → α × FilterStore}
    {next : FilterStore → β × FilterStore} {n : Nat} {place : α} {place' : β}
    {cs ds : List FilterCell} (h : Adds act n place cs)
    (h' : Adds next (n + cs.length) place' ds) (pair : α → β → γ) :
    Adds (fun s => (pair (act s).1 (next (act s).2).1, (next (act s).2).2)) n
      (pair place place') (cs ++ ds) := by
  refine ⟨fun s hs => ?_, fun c hc g hg a ha => ?_⟩
  · have hlength : (s.cells ++ cs).length = n + cs.length := by rw [List.length_append, hs]
    rw [h.run s hs, h'.run ⟨s.cells ++ cs⟩ hlength, List.append_assoc]
  · rcases List.mem_append.mp hc with hc | hc
    · exact (h.inner c hc g hg a ha).appendLeft ds
    · exact (h'.inner c hc g hg a ha).appendRight

mutual

/-- Storing a filter puts its cells behind those of the store, its own one last. Wherever
    these cells stand, the last one stands for the filter. -/
theorem alloc_adds (f : Filter) (n : Nat) : ∃ cells, 0 < cells.length ∧
    Adds (alloc f) n (n + cells.length - 1) cells ∧
    ∀ u : FilterStore, u.Holds n cells →
      u.resolve? cells.length (n + cells.length - 1) = some f := by
  cases f with
  | mk cs gs =>
    obtain ⟨groups, cells, hadds, hown, hresolve⟩ := allocGroups_adds gs n
    have hlast : n + (cells ++ [(⟨cs, groups⟩ : FilterCell)]).length - 1 = n + cells.length := by
      rw [List.length_append, List.length_singleton]
      omega
    refine ⟨cells ++ [⟨cs, groups⟩], by simp, ⟨fun s hs => ?_, fun c hc g hg a ha => ?_⟩,
      fun u hu => ?_⟩
    · rw [alloc, hadds.run s hs, hlast]
      simp only [push, List.length_append, hs, List.append_assoc]
    · rcases List.mem_append.mp hc with hc | hc
      · exact (hadds.inner c hc g hg a ha).appendLeft _
      · obtain rfl := List.mem_singleton.mp hc
        exact (hown g hg a ha).appendLeft _
    · rw [hlast, List.length_append, List.length_singleton, resolve?, hu.get_eq,
        hresolve u hu.append.1]
      rfl

theorem allocGroups_adds (gs : List (List Filter)) (n : Nat) : ∃ groups cells,
    Adds (allocGroups gs) n groups cells ∧
    (∀ g ∈ groups, ∀ a ∈ g, IsNew n cells a) ∧
    ∀ u : FilterStore, u.Holds n cells →
      groups.mapM (fun g => g.mapM (u.resolve? cells.length)) = some gs := by
  cases gs with
  | nil =>
    exact ⟨[], [], ⟨fun s _ => by rw [allocGroups, List.append_nil], nofun⟩, nofun,
      fun u _ => rfl⟩
  | cons g gs =>
    obtain ⟨group, cells, hadds, hown, hresolve⟩ := allocGroup_adds g n
    obtain ⟨groups, cells', hadds', hown', hresolve'⟩ := allocGroups_adds gs (n + cells.length)
    refine ⟨group :: groups, cells ++ cells', hadds.bind hadds' (· :: ·), ?_, fun u hu => ?_⟩
    · rw [List.forall_mem_cons]
      exact ⟨fun a ha => (hown a ha).appendLeft cells',
        fun g' hg' a ha => (hown' g' hg' a ha).appendRight⟩
    · have hfirst := resolve?_group_mono (k := (cells ++ cells').length) (by simp)
        (hresolve u hu.append.1)
      have hrest := resolve?_groups_mono (k := (cells ++ cells').length) (by simp)
        (hresolve' u hu.append.2)
      rw [List.mapM_cons, hfirst, hrest]
      rfl

theorem allocGroup_adds (fs : List Filter) (n : Nat) : ∃ ids cells,
    Adds (allocGroup fs) n ids cells ∧ (∀ a ∈ ids, IsNew n cells a) ∧
    ∀ u : FilterStore, u.Holds n cells → ids.mapM (u.resolve? cells.length) = some fs := by
  cases fs with
  | nil =>
    exact ⟨[], [], ⟨fun s _ => by rw [allocGroup, List.append_nil], nofun⟩, nofun,
      fun u _ => rfl⟩
  | cons f fs =>
    obtain ⟨cells, hpos, hadds, hresolve⟩ := alloc_adds f n
    obtain ⟨ids, cells', hadds', hown', hresolve'⟩ := allocGroup_adds fs (n + cells.length)
    refine ⟨(n + cells.length - 1) :: ids, cells ++ cells', hadds.bind hadds' (· :: ·), ?_,
      fun u hu => ?_⟩
    · rw [List.forall_mem_cons]
      have hfirst : IsNew n cells (n + cells.length - 1) := by
        rw [IsNew]
        omega
      exact ⟨hfirst.appendLeft cells', fun a ha => (hown' a ha).appendRight⟩
    · have hfirst := resolve?_mono (k := (cells ++ cells').length) (by simp)
        (hresolve u hu.append.1)
      have hrest := resolve?_group_mono (k := (cells ++ cells').length) (by simp)
        (hresolve' u hu.append.2)
      rw [List.mapM_cons, hfirst, hrest]
      rfl

end

/-! ## Filters that nothing refers to -/

/-- No filter refers to the one at a place. -/
def IsUnshared (s : FilterStore) (id : Nat) : Prop :=
  ∀ c ∈ s.cells, ∀ g ∈ c.groups, id ∉ g

/-- All references lead to places of the store. -/
def IsClosed (s : FilterStore) : Prop :=
  ∀ c ∈ s.cells, ∀ g ∈ c.groups, ∀ a ∈ g, a < s.cells.length

/-- A group is made of alternatives that have conditions, and these are in the store. -/
theorem isClosed_of_built {s : FilterStore} (h : Built s) : s.IsClosed := by
  have hmodify : ∀ {s : FilterStore} {id : FilterId} {change : FilterCell → FilterCell},
      s.IsClosed → (∀ c ∈ s.cells, ∀ g ∈ (change c).groups,
        g ∈ c.groups ∨ ∀ a ∈ g, a < s.cells.length) → (s.modify id change).IsClosed := by
    intro s id change hs hchange c hc g hg a ha
    rw [modify, List.length_modify]
    rcases mem_modify hc with hc | ⟨c', hc', rfl⟩
    · exact hs c hc g hg a ha
    · rcases hchange c' hc' g hg with hg | hin
      · exact hs c' hc' g hg a ha
      · exact hin a ha
  induction h with
  | empty =>
    intro c hc
    cases hc
  | new _ ih =>
    intro c hc g hg a ha
    rcases List.mem_append.mp hc with hc | hc
    · rw [push, List.length_append]
      exact Nat.lt_of_lt_of_le (ih c hc g hg a ha) (Nat.le_add_right _ _)
    · obtain rfl := List.mem_singleton.mp hc
      cases hg
  | add _ hadd ih =>
    obtain ⟨constraint, _, rfl⟩ := exists_of_map_eq_ok hadd
    exact hmodify ih fun c _ g hg => .inl hg
  | @addGroup s _ id alternatives ih =>
    unfold FilterStore.addGroup
    split
    · exact ih
    · refine hmodify ih fun c _ g hg => ?_
      rcases List.mem_append.mp hg with hg | hg
      · exact .inl hg
      · obtain rfl := List.mem_singleton.mp hg
        refine .inr fun a ha => ?_
        have hgiven := List.of_mem_filter ha
        by_contra hout
        rw [get, List.getElem?_eq_none (Nat.le_of_not_lt hout)] at hgiven
        cases hgiven

theorem get_modify_self {s : FilterStore} {id : FilterId} (hid : id < s.cells.length)
    (change : FilterCell → FilterCell) : (s.modify id change).get id = change (s.get id) := by
  rw [get, get, modify, List.getElem?_modify_eq, List.getElem?_eq_getElem hid]
  rfl

theorem get_modify_of_ne {s : FilterStore} {id a : FilterId} (h : a ≠ id)
    (change : FilterCell → FilterCell) : (s.modify id change).get a = s.get a := by
  rw [get, get, modify, List.getElem?_modify_ne _ _ h.symm]

theorem modify_modify (s : FilterStore) (id : FilterId) (first next : FilterCell → FilterCell) :
    (s.modify id first).modify id next = s.modify id (next ∘ first) := by
  rw [modify, modify, modify, List.modify_modify_eq]

theorem length_modify (s : FilterStore) (id : FilterId) (change : FilterCell → FilterCell) :
    (s.modify id change).cells.length = s.cells.length :=
  List.length_modify ..

/-- A change of a cell and new cells behind it do not meet. -/
theorem modify_append {s : FilterStore} {id : FilterId} (hid : id < s.cells.length)
    (cells : List FilterCell) (change : FilterCell → FilterCell) :
    FilterStore.modify ⟨s.cells ++ cells⟩ id change = ⟨(s.modify id change).cells ++ cells⟩ := by
  have hlt : id < (s.cells ++ cells).length := by
    rw [List.length_append]
    exact Nat.lt_of_lt_of_le hid (Nat.le_add_right _ _)
  simp only [modify, FilterStore.mk.injEq]
  rw [List.modify_eq_take_cons_drop hlt, List.modify_eq_take_cons_drop hid,
    List.take_append_of_le_length (Nat.le_of_lt hid), List.drop_append_of_le_length hid,
    List.getElem_append_left hid, List.append_assoc, List.cons_append]

theorem mem_get {s : FilterStore} {id : FilterId} {g : List FilterId} (hg : g ∈ (s.get id).groups) :
    ∃ c ∈ s.cells, g ∈ c.groups := by
  unfold get at hg
  cases hcell : s.cells[id]? with
  | none =>
    rw [hcell] at hg
    cases hg
  | some c =>
    rw [hcell] at hg
    exact ⟨c, List.mem_of_getElem? hcell, hg⟩

/-- A filter that nothing refers to matters to itself only. -/
theorem resolve?_modify {s : FilterStore} {id : FilterId} (h : s.IsUnshared id)
    (change : FilterCell → FilterCell) (fuel : Nat) {a : FilterId} (ha : a ≠ id) :
    (s.modify id change).resolve? fuel a = s.resolve? fuel a := by
  have hinner : ∀ b, b ≠ id → ∀ g ∈ (s.get b).groups, ∀ a ∈ g, a ≠ id := by
    rintro b _ g hg _ hmem rfl
    obtain ⟨c, hc, hg⟩ := mem_get hg
    exact h c hc g hg hmem
  exact resolve?_congr (fun b hb => get_modify_of_ne hb change) hinner fuel ha

theorem resolve_modify {s : FilterStore} {id : FilterId} (h : s.IsUnshared id)
    (change : FilterCell → FilterCell) {a : FilterId} (ha : a ≠ id) :
    (s.modify id change).resolve a = s.resolve a := by
  rw [resolve, resolve, length_modify, resolve?_modify h change _ ha]

/-- A copy of a filter: the filter, stored behind the cells of the store. -/
theorem exists_of_copy {s t : FilterStore} {id new : FilterId} (h : s.copy id = .ok (new, t)) :
    ∃ f, s.resolve id = .ok f ∧ alloc f s = (new, t) :=
  exists_of_map_eq_ok h

theorem alloc_modify {s : FilterStore} {id : FilterId} (hid : id < s.cells.length)
    (change : FilterCell → FilterCell) (f : Filter) :
    alloc f (s.modify id change) = ((alloc f s).1, (alloc f s).2.modify id change) := by
  obtain ⟨cells, _, hadds, _⟩ := alloc_adds f s.cells.length
  rw [hadds.run s rfl, hadds.run _ (length_modify s id change), modify_append hid]

theorem copy_modify {s : FilterStore} {id : FilterId} (hid : id < s.cells.length)
    (h : s.IsUnshared id) (change : FilterCell → FilterCell) {a : FilterId} (ha : a ≠ id) :
    (s.modify id change).copy a =
      (s.copy a).map fun (new, t) => (new, t.modify id change) := by
  rw [copy, copy, resolve_modify h change ha]
  cases s.resolve a with
  | error e => rfl
  | ok f => exact congrArg Except.ok (alloc_modify hid change f)

/-! ## Growing stores -/

/-- The store has been added to by cells that refer to each other only. -/
structure Grows (s t : FilterStore) : Prop where
  cells : ∃ cells, t.cells = s.cells ++ cells ∧
    ∀ c ∈ cells, ∀ g ∈ c.groups, ∀ a ∈ g, s.cells.length ≤ a ∧ a < t.cells.length

theorem Grows.refl (s : FilterStore) : Grows s s :=
  ⟨[], (List.append_nil _).symm, nofun⟩

theorem grows_push_empty (s : FilterStore) : Grows s (s.push .empty).2 := by
  refine ⟨[.empty], rfl, fun c hc g hg => ?_⟩
  obtain rfl := List.mem_singleton.mp hc
  cases hg

theorem Grows.length_le {s t : FilterStore} (h : Grows s t) :
    s.cells.length ≤ t.cells.length := by
  obtain ⟨cells, hcells, _⟩ := h.cells
  rw [hcells, List.length_append]
  exact Nat.le_add_right _ _

theorem Grows.trans {s t u : FilterStore} (h : Grows s t) (h' : Grows t u) : Grows s u := by
  have hle := h.length_le
  have hle' := h'.length_le
  obtain ⟨cs, hcs, hinner⟩ := h.cells
  obtain ⟨ds, hds, hinner'⟩ := h'.cells
  refine ⟨cs ++ ds, by rw [hds, hcs, List.append_assoc], fun c hc g hg a ha => ?_⟩
  rcases List.mem_append.mp hc with hc | hc
  · obtain ⟨hlow, hhigh⟩ := hinner c hc g hg a ha
    exact ⟨hlow, Nat.lt_of_lt_of_le hhigh hle'⟩
  · obtain ⟨hlow, hhigh⟩ := hinner' c hc g hg a ha
    exact ⟨Nat.le_trans hle hlow, hhigh⟩

theorem Grows.isUnshared {s t : FilterStore} (h : Grows s t) {id : FilterId}
    (hid : id < s.cells.length) (hs : s.IsUnshared id) : t.IsUnshared id := by
  obtain ⟨cells, hcells, hinner⟩ := h.cells
  intro c hc g hg ha
  rw [hcells] at hc
  rcases List.mem_append.mp hc with hc | hc
  · exact hs c hc g hg ha
  · exact Nat.not_lt_of_le (hinner c hc g hg id ha).1 hid

theorem Grows.isClosed {s t : FilterStore} (h : Grows s t) (hs : s.IsClosed) : t.IsClosed := by
  have hle := h.length_le
  obtain ⟨cells, hcells, hinner⟩ := h.cells
  intro c hc g hg a ha
  rw [hcells] at hc
  rcases List.mem_append.mp hc with hc | hc
  · exact Nat.lt_of_lt_of_le (hs c hc g hg a ha) hle
  · exact (hinner c hc g hg a ha).2

theorem Grows.get_eq {s t : FilterStore} (h : Grows s t) {id : FilterId}
    (hid : id < s.cells.length) : t.get id = s.get id := by
  obtain ⟨cells, hcells, _⟩ := h.cells
  rw [get, get, hcells, List.getElem?_append_left hid]

/-- A filter in the store that nothing refers to. -/
structure IsOwn (s : FilterStore) (own : FilterId) : Prop where
  lt : own < s.cells.length
  unshared : s.IsUnshared own

theorem IsOwn.grows {s t : FilterStore} {own : FilterId} (h : s.IsOwn own) (hgrows : Grows s t) :
    t.IsOwn own :=
  ⟨Nat.lt_of_lt_of_le h.lt hgrows.length_le, hgrows.isUnshared h.lt h.unshared⟩

/-- Nothing refers to a filter that was just made. -/
theorem isOwn_push_empty {s : FilterStore} (hs : s.IsClosed) :
    (s.push .empty).2.IsOwn s.cells.length := by
  refine ⟨by simp [push], fun c hc g hg hmem => ?_⟩
  rcases List.mem_append.mp hc with hc | hc
  · exact Nat.lt_irrefl _ (hs c hc g hg _ hmem)
  · obtain rfl := List.mem_singleton.mp hc
    cases hg

/-- A filter stays what it is when the store grows. -/
theorem Grows.resolve?_eq {s t : FilterStore} (h : Grows s t) (hs : s.IsClosed) (fuel : Nat)
    {id : FilterId} (hid : id < s.cells.length) : t.resolve? fuel id = s.resolve? fuel id := by
  refine resolve?_congr (P := (· < s.cells.length)) (fun a ha => h.get_eq ha) ?_ fuel hid
  intro a _ g hg b hb
  obtain ⟨c, hc, hg⟩ := mem_get hg
  exact hs c hc g hg b hb

theorem Grows.resolve_eq_ok {s t : FilterStore} (h : Grows s t) (hs : s.IsClosed) {id : FilterId}
    (hid : id < s.cells.length) {f : Filter} (hf : s.resolve id = .ok f) :
    t.resolve id = .ok f := by
  refine resolve_eq_ok_iff.mpr (resolve?_mono (Nat.succ_le_succ h.length_le) ?_)
  rw [h.resolve?_eq hs _ hid]
  exact resolve_eq_ok_iff.mp hf

theorem grows_alloc (f : Filter) (s : FilterStore) :
    Grows s (alloc f s).2 ∧ s.cells.length ≤ (alloc f s).1 := by
  obtain ⟨cells, hpos, hadds, _⟩ := alloc_adds f s.cells.length
  rw [hadds.run s rfl]
  refine ⟨⟨cells, rfl, fun c hc g hg a ha => ?_⟩, ?_⟩
  · have hnew := hadds.inner c hc g hg a ha
    rwa [List.length_append]
  · show s.cells.length ≤ s.cells.length + cells.length - 1
    omega

theorem grows_of_copy {s t : FilterStore} {id new : FilterId} (h : s.copy id = .ok (new, t)) :
    Grows s t ∧ s.cells.length ≤ new := by
  obtain ⟨f, _, halloc⟩ := exists_of_copy h
  have hgrows := grows_alloc f s
  rwa [halloc] at hgrows

/-! ## Copies -/

/-- The place of a copy, which stands for what was copied. -/
structure IsCopy (s t : FilterStore) (new : FilterId) (f : Filter) : Prop where
  le : s.cells.length ≤ new
  lt : new < t.cells.length
  resolve? : t.resolve? t.cells.length new = some f

theorem isCopy_alloc (f : Filter) (s : FilterStore) :
    IsCopy s (alloc f s).2 (alloc f s).1 f := by
  obtain ⟨cells, hpos, hadds, hresolve⟩ := alloc_adds f s.cells.length
  rw [hadds.run s rfl]
  have hlength : cells.length ≤ (s.cells ++ cells).length := by simp
  refine ⟨?_, ?_, resolve?_mono hlength (hresolve _ (holds_append s cells))⟩
  · show s.cells.length ≤ s.cells.length + cells.length - 1
    omega
  · show s.cells.length + cells.length - 1 < (s.cells ++ cells).length
    rw [List.length_append]
    omega

theorem IsCopy.grows {r s t u : FilterStore} {new : FilterId} {f : Filter} (h : IsCopy s t new f)
    (hrs : Grows r s) (ht : t.IsClosed) (htu : Grows t u) : IsCopy r u new f := by
  refine ⟨Nat.le_trans hrs.length_le h.le, Nat.lt_of_lt_of_le h.lt htu.length_le, ?_⟩
  refine resolve?_mono htu.length_le ?_
  rw [htu.resolve?_eq ht _ h.lt, h.resolve?]

/-- Filters of a store can be copied, and their copies stand for them. -/
theorem exists_copyAll {s : FilterStore} (hs : s.IsClosed) {ids : List FilterId} {fs : List Filter}
    (h : List.Forall₂ (fun id f => id < s.cells.length ∧ s.resolve id = .ok f) ids fs) :
    ∃ news t, copyAll ids s = .ok (news, t) ∧ Grows s t ∧ List.Forall₂ (IsCopy s t) news fs := by
  induction ids generalizing s fs with
  | nil =>
    cases h
    exact ⟨[], s, rfl, .refl s, .nil⟩
  | cons id ids ih =>
    obtain ⟨f, fs, hhead, hrest, rfl⟩ := List.forall₂_cons_left_iff.mp h
    obtain ⟨new, t, hcopy⟩ : ∃ new t, alloc f s = (new, t) := ⟨_, _, rfl⟩
    have hgrows := (grows_alloc f s).1
    have hnew := isCopy_alloc f s
    rw [hcopy] at hgrows hnew
    have hclosed := hgrows.isClosed hs
    have hkept : List.Forall₂ (fun id f => id < t.cells.length ∧ t.resolve id = .ok f) ids fs := by
      refine hrest.imp fun a f' ha => ⟨Nat.lt_of_lt_of_le ha.1 hgrows.length_le, ?_⟩
      exact hgrows.resolve_eq_ok hs ha.1 ha.2
    obtain ⟨news, u, hcopies, hgrows', hnews⟩ := ih hclosed hkept
    refine ⟨new :: news, u, ?_, hgrows.trans hgrows',
      .cons (hnew.grows (.refl s) hclosed hgrows') ?_⟩
    · rw [copyAll, copy, hhead.2]
      show (copyAll ids (alloc f s).2 >>= _) = _
      rw [hcopy, hcopies]
      rfl
    · exact hnews.imp fun a f' ha => ha.grows hgrows (hgrows'.isClosed hclosed) (.refl u)

end DocQuery.FilterStore
