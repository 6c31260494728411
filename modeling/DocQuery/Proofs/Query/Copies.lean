-- SUMMARY: Copies of filters and queries, and queries made of several: new cells that stand for what was copied.
import DocQuery.Proofs.Filter.Reach
import DocQuery.Proofs.Query.Combined
import DocQuery.Proofs.Query.Modifiers

/-!
# Copies of filters and queries

When filters are copied one after the other, or when the conditions of one are added to
another, the store grows by cells that refer to each other only. The copies stand for what
the filters stood for before, since nothing that was there is touched. So copies of queries
and queries made of several have filters of their own, and these stand for what they were
made of.
-/

namespace DocQuery

/-- The filter with the conditions of all filters. -/
def Filter.allOf (fs : List Filter) : Filter :=
  .mk (fs.flatMap Filter.constraints) (fs.flatMap Filter.groups)

theorem Filter.eq_of_parts {f f' : Filter} (hconstraints : f.constraints = f'.constraints)
    (hgroups : f.groups = f'.groups) : f = f' := by
  obtain ⟨cs, gs⟩ := f
  obtain ⟨cs', gs'⟩ := f'
  cases hconstraints
  cases hgroups
  rfl

theorem Filter.allOf_singleton (f : Filter) : allOf [f] = f :=
  eq_of_parts (List.append_nil _) (List.append_nil _)

theorem Filter.allOf_concat (fs : List Filter) (f : Filter) : allOf (fs ++ [f]) =
    .mk ((allOf fs).constraints ++ f.constraints) ((allOf fs).groups ++ f.groups) := by
  simp [allOf, Filter.constraints, Filter.groups]

namespace FilterStore

/-! ## What a cell stands for -/

/-- A cell stands for a filter, however many references have to be followed. -/
def StandsFor (s : FilterStore) (id : FilterId) (f : Filter) : Prop :=
  ∃ fuel, s.resolve? fuel id = some f

theorem standsFor_of_resolve {s : FilterStore} {id : FilterId} {f : Filter}
    (h : s.resolve id = .ok f) : s.StandsFor id f :=
  ⟨_, resolve_eq_ok_iff.mp h⟩

theorem standsFor_unique (s : FilterStore) : Relator.RightUnique s.StandsFor := by
  rintro id f f' ⟨k, hk⟩ ⟨k', hk'⟩
  have hmax := resolve?_mono (Nat.le_max_left k k') hk
  rw [resolve?_mono (Nat.le_max_right k k') hk'] at hmax
  exact (Option.some.inj hmax).symm

theorem Grows.standsFor {s t : FilterStore} (h : Grows s t) (hs : s.IsClosed) {id : FilterId}
    (hid : id < s.cells.length) {f : Filter} (hf : t.StandsFor id f) : s.StandsFor id f := by
  obtain ⟨fuel, hfuel⟩ := hf
  exact ⟨fuel, by rw [← h.resolve?_eq hs fuel hid, hfuel]⟩

/-- The parts of a filter, in terms of what the alternatives of a cell stand for. -/
structure Shows (s : FilterStore) (id : FilterId) (f : Filter) : Prop where
  constraints : f.constraints = (s.get id).constraints
  groups : List.Forall₂ (List.Forall₂ s.StandsFor) (s.get id).groups f.groups

theorem StandsFor.shows {s : FilterStore} {id : FilterId} {f : Filter} (h : s.StandsFor id f) :
    s.Shows id f := by
  obtain ⟨fuel, hf⟩ := h
  cases fuel with
  | zero => cases hf
  | succ fuel =>
    obtain ⟨groups, hgroups, rfl⟩ := resolve?_succ_iff.mp hf
    exact ⟨rfl, hgroups.imp fun g fs hfs => hfs.imp fun a f hf => ⟨fuel, hf⟩⟩

theorem Shows.unique {s : FilterStore} {id : FilterId} {f f' : Filter} (h : s.Shows id f)
    (h' : s.Shows id f') : f = f' :=
  Filter.eq_of_parts (h.constraints.trans h'.constraints.symm)
    ((standsFor_unique s).forall₂.forall₂ h.groups h'.groups)

/-! ## Copying one after the other -/

theorem forall₂_standsFor_of_grows {s t : FilterStore} (h : Grows s t) (hs : s.IsClosed)
    {ids : List FilterId} (hids : ∀ a ∈ ids, a < s.cells.length) {fs : List Filter}
    (hfs : List.Forall₂ t.StandsFor ids fs) : List.Forall₂ s.StandsFor ids fs :=
  ((List.forall₂_and_left ..).mpr ⟨hids, hfs⟩).imp fun _ _ hf => h.standsFor hs hf.1 hf.2

/-- Copies of filters stand for them. -/
theorem copyAll_spec {s t : FilterStore} (hs : s.IsClosed) {ids news : List FilterId}
    (hids : ∀ a ∈ ids, a < s.cells.length) (h : copyAll ids s = .ok (news, t)) :
    Grows s t ∧ ∃ fs, List.Forall₂ s.StandsFor ids fs ∧ List.Forall₂ (IsCopy s t) news fs := by
  induction ids generalizing s news with
  | nil =>
    cases h
    exact ⟨.refl _, [], .nil, .nil⟩
  | cons id ids ih =>
    obtain ⟨⟨new, s'⟩, hcopy, h⟩ := exists_of_bind_eq_ok h
    obtain ⟨⟨news, t'⟩, hcopies, h⟩ := exists_of_bind_eq_ok h
    cases h
    have hrest := (List.forall_mem_cons.mp hids).2
    obtain ⟨f, hf, halloc⟩ := exists_of_copy hcopy
    have hgrows := (grows_of_copy hcopy).1
    have hnew := isCopy_alloc f s
    rw [halloc] at hnew
    have hclosed := hgrows.isClosed hs
    obtain ⟨hgrows', fs, hfs, hnews⟩ := ih hclosed
      (fun a ha => Nat.lt_of_lt_of_le (hrest a ha) hgrows.length_le) hcopies
    refine ⟨hgrows.trans hgrows', f :: fs, .cons (standsFor_of_resolve hf)
      (forall₂_standsFor_of_grows hgrows hs hrest hfs),
      .cons (hnew.grows (.refl s) hclosed hgrows') ?_⟩
    exact hnews.imp fun a f' ha => ha.grows hgrows (hgrows'.isClosed hclosed) (.refl _)

theorem copyGroups_spec {s t : FilterStore} (hs : s.IsClosed) {gs news : List (List FilterId)}
    (hgs : ∀ g ∈ gs, ∀ a ∈ g, a < s.cells.length) (h : copyGroups gs s = .ok (news, t)) :
    Grows s t ∧ ∃ fss, List.Forall₂ (List.Forall₂ s.StandsFor) gs fss ∧
      List.Forall₂ (List.Forall₂ (IsCopy s t)) news fss := by
  induction gs generalizing s news with
  | nil =>
    cases h
    exact ⟨.refl _, [], .nil, .nil⟩
  | cons g gs ih =>
    obtain ⟨⟨new, s'⟩, hcopy, h⟩ := exists_of_bind_eq_ok h
    obtain ⟨⟨news, t'⟩, hcopies, h⟩ := exists_of_bind_eq_ok h
    cases h
    obtain ⟨hg, hrest⟩ := List.forall_mem_cons.mp hgs
    obtain ⟨hgrows, fs, hfs, hnew⟩ := copyAll_spec hs hg hcopy
    have hclosed := hgrows.isClosed hs
    obtain ⟨hgrows', fss, hfss, hnews⟩ := ih hclosed
      (fun g hg a ha => Nat.lt_of_lt_of_le (hrest g hg a ha) hgrows.length_le) hcopies
    refine ⟨hgrows.trans hgrows', fs :: fss, .cons hfs ?_, .cons ?_ ?_⟩
    · exact ((List.forall₂_and_left ..).mpr ⟨hrest, hfss⟩).imp fun g fs hg =>
        forall₂_standsFor_of_grows hgrows hs hg.1 hg.2
    · exact hnew.imp fun a f ha => ha.grows (.refl s) hclosed hgrows'
    · exact hnews.imp fun g fs hg => hg.imp fun a f ha =>
        ha.grows hgrows (hgrows'.isClosed hclosed) (.refl _)

/-! ## Adding the conditions of filters to a new one -/

/-- A change of one of the cells behind others. -/
theorem modify_append_right (cs ds : List FilterCell) {id : Nat} (hid : cs.length ≤ id)
    (change : FilterCell → FilterCell) :
    (cs ++ ds).modify id change = cs ++ ds.modify (id - cs.length) change := by
  refine List.ext_getElem? fun i => ?_
  rcases Nat.lt_or_ge i cs.length with hlt | hge
  · rw [List.getElem?_modify_ne _ _ (by omega), List.getElem?_append_left hlt,
      List.getElem?_append_left hlt]
  · have hplace : id = i ↔ id - cs.length = i - cs.length := by omega
    rw [List.getElem?_modify, List.getElem?_append_right hge, List.getElem?_append_right hge,
      List.getElem?_modify]
    simp only [hplace]

/-- New cells may get further conditions, as long as these refer to new cells. -/
theorem Grows.extend {s t : FilterStore} (h : Grows s t) {id : FilterId}
    (hid : s.cells.length ≤ id) (constraints : List Constraint) {groups : List (List FilterId)}
    (hgroups : ∀ g ∈ groups, ∀ a ∈ g, s.cells.length ≤ a ∧ a < t.cells.length) :
    Grows s (t.modify id (·.extend constraints groups)) := by
  obtain ⟨cells, hcells, hinner⟩ := h.cells
  refine ⟨cells.modify (id - s.cells.length) (·.extend constraints groups), ?_, ?_⟩
  · rw [modify, hcells, modify_append_right _ _ hid]
  · rw [length_modify]
    intro c hc g hg
    rcases mem_modify (s := ⟨cells⟩) hc with hc | ⟨c', hc', rfl⟩
    · exact hinner c hc g hg
    · exact (List.mem_append.mp hg).elim (hinner c' hc' g) (hgroups g)

theorem length_addGroup (s : FilterStore) (id : FilterId) (ids : List FilterId) :
    (s.addGroup id ids).cells.length = s.cells.length := by
  unfold addGroup
  split
  · rfl
  · exact length_modify ..

/-- A group for a new cell, of new cells. -/
theorem Grows.addGroup {s t : FilterStore} (h : Grows s t) {id : FilterId}
    (hid : s.cells.length ≤ id) {ids : List FilterId}
    (hids : ∀ a ∈ ids, s.cells.length ≤ a ∧ a < t.cells.length) : Grows s (t.addGroup id ids) := by
  unfold FilterStore.addGroup
  split
  · exact h
  · have hgroup : ∀ g ∈ [ids.filter fun a => !(t.get a).isEmpty], ∀ a ∈ g,
        s.cells.length ≤ a ∧ a < t.cells.length := by
      intro g hg a ha
      obtain rfl := List.mem_singleton.mp hg
      exact hids a (List.mem_of_mem_filter ha)
    have hextend := h.extend hid [] hgroup
    simpa only [FilterCell.extend, List.append_nil] using hextend

/-- A filter collects the conditions of others: it stands for all of them together, with
    alternatives behind itself. -/
structure Collects (base : FilterStore) (own : FilterId) (s : FilterStore) (f : Filter) :
    Prop where
  edited : ∀ own, Edited own base s
  grows : Grows base s
  isOwn : s.IsOwn own
  constraints : (s.get own).constraints = f.constraints
  groups : List.Forall₂ (List.Forall₂ fun a f' => own < a ∧ a < s.cells.length ∧
    s.resolve? s.cells.length a = some f') (s.get own).groups f.groups

theorem collects_push_empty {s : FilterStore} (hs : s.IsClosed) :
    Collects s s.cells.length (s.push .empty).2 (.allOf []) where
  edited own := edited_push_empty own s
  grows := grows_push_empty s
  isOwn := isOwn_push_empty hs
  constraints := by rw [get_push_self]; rfl
  groups := by rw [get_push_self]; exact .nil

theorem Collects.resolve {base s : FilterStore} {own : FilterId} {f : Filter}
    (h : Collects base own s f) : s.resolve own = .ok f := by
  refine resolve_eq_ok_iff.mpr (resolve?_succ_iff.mpr ⟨f.groups, ?_, ?_⟩)
  · exact h.groups.imp fun g fs hg => hg.imp fun a f' ha => ha.2.2
  · exact Filter.eq_of_parts h.constraints.symm rfl

/-- The conditions of one more filter of the store that was there before. -/
theorem Collects.append {base s t : FilterStore} {own source : FilterId} {f : Filter}
    (h : Collects base own s f) (hgrouped : base.IsGrouped) (hown : base.cells.length ≤ own)
    (hsource : source < base.cells.length) (happend : s.append own source = .ok t) :
    ∃ f', base.Shows source f' ∧ Collects base own t
      (.mk (f.constraints ++ f'.constraints) (f.groups ++ f'.groups)) := by
  have hbase := hgrouped.isClosed
  have hedited := fun own' => edited_append hgrouped (h.edited own') (.inr hown) happend
  obtain ⟨⟨news, s'⟩, hcopies, happend⟩ := exists_of_bind_eq_ok happend
  cases happend
  have hclosed := h.grows.isClosed hbase
  have hcell : s.get source = base.get source := h.grows.get_eq hsource
  have hin : ∀ g ∈ (base.get source).groups, ∀ a ∈ g, a < base.cells.length := by
    intro g hg a ha
    obtain ⟨c, hc, hg⟩ := mem_get hg
    exact hbase c hc g hg a ha
  rw [hcell] at hcopies hedited ⊢
  obtain ⟨hgrows, fss, hfss, hnews⟩ := copyGroups_spec hclosed
    (fun g hg a ha => Nat.lt_of_lt_of_le (hin g hg a ha) h.grows.length_le) hcopies
  have hbehind : ∀ g ∈ news, ∀ a ∈ g, s.cells.length ≤ a ∧ a < s'.cells.length := by
    intro g hg a ha
    obtain ⟨fs, _, hfs⟩ := exists_mem_of_forall₂ hnews hg
    obtain ⟨f', _, hcopy⟩ := exists_mem_of_forall₂ hfs ha
    exact ⟨hcopy.le, hcopy.lt⟩
  have hown' := h.isOwn.grows hgrows
  have hextended : s'.get own = s.get own := hgrows.get_eq h.isOwn.lt
  refine ⟨.mk (base.get source).constraints fss, ⟨rfl, ?_⟩, hedited, ?_, ?_, ?_, ?_⟩
  · exact ((List.forall₂_and_left ..).mpr ⟨hin, hfss⟩).imp fun g fs hg =>
      forall₂_standsFor_of_grows h.grows hbase hg.1 hg.2
  · refine (h.grows.trans hgrows).extend hown _ fun g hg a ha => ?_
    obtain ⟨hle, hlt⟩ := hbehind g hg a ha
    exact ⟨Nat.le_trans h.grows.length_le hle, hlt⟩
  · refine ⟨by rw [length_modify]; exact hown'.lt, isUnshared_modify hown'.unshared ?_⟩
    intro c _ g hg
    refine (List.mem_append.mp hg).imp_right fun hg hmem => ?_
    exact Nat.not_lt_of_le (hbehind g hg own hmem).1 h.isOwn.lt
  · rw [get_modify_self hown'.lt, hextended]
    exact congrArg (· ++ _) h.constraints
  · -- what the alternatives stand for does not depend on the filter that collects them
    have hstay : ∀ a f', own < a → a < s'.cells.length →
        s'.resolve? s'.cells.length a = some f' → own < a ∧ a < s'.cells.length ∧
          (s'.modify own (·.extend (base.get source).constraints news)).resolve?
            s'.cells.length a = some f' := fun a f' hlt hin hf =>
      ⟨hlt, hin, by rw [resolve?_modify hown'.unshared _ _ (Nat.ne_of_gt hlt), hf]⟩
    rw [get_modify_self hown'.lt, hextended, length_modify]
    refine List.rel_append (h.groups.imp fun g fs hg => hg.imp fun a f' ha => ?_)
      (hnews.imp fun g fs hg => hg.imp fun a f' ha => ?_)
    · refine hstay a f' ha.1 (Nat.lt_of_lt_of_le ha.2.1 hgrows.length_le) ?_
      refine resolve?_mono hgrows.length_le ?_
      rw [hgrows.resolve?_eq hclosed _ ha.2.1, ha.2.2]
    · exact hstay a f' (Nat.lt_of_lt_of_le h.isOwn.lt ha.le) ha.lt ha.resolve?

end FilterStore

/-! ## Queries made of others -/

open FilterStore

/-- A query that was made beside a store of others: its filter is in new cells, which refer to
    each other only. -/
structure Draft.IsBeside (s : FilterStore) (d : Draft) (f : Filter) : Prop where
  edited : ∀ own, Edited own s d.filters
  grows : Grows s d.filters
  le : s.cells.length ≤ d.query.filter
  lt : d.query.filter < d.filters.cells.length
  filter : d.filter = .ok f

namespace Operand

theorem eq_of_queriesFor {className : Value} {operands : List Operand} {qs : List Query}
    (h : queriesFor className operands = .ok qs) : operands = qs.map .query := by
  induction operands generalizing qs with
  | nil =>
    cases h
    rfl
  | cons o operands ih =>
    cases o with
    | query q =>
      rw [queriesFor] at h
      split at h
      · obtain ⟨qs', hqs, rfl⟩ := exists_of_map_eq_ok h
        rw [List.map_cons, ← ih hqs]
      · cases h
    | _ => cases h

theorem eq_of_combine {operands : List Operand} {className : Value} {qs : List Query}
    (h : combine operands = .ok (className, qs)) : operands.filter isGiven = qs.map .query := by
  unfold combine at h
  split at h
  · cases h
  · rename_i heq
    obtain ⟨qs', hqs, hpair⟩ := exists_of_map_eq_ok h
    cases hpair
    rw [heq]
    exact eq_of_queriesFor hqs
  · cases h

theorem forall_of_combine {operands : List Operand} {className : Value} {qs : List Query}
    (h : combine operands = .ok (className, qs)) {P : Query → Prop}
    (hoperands : ∀ q, .query q ∈ operands → P q) : ∀ q ∈ qs, P q := by
  intro q hq
  have hmem : .query q ∈ operands.filter isGiven := by
    rw [eq_of_combine h]
    exact List.mem_map_of_mem hq
  exact hoperands q (List.mem_of_mem_filter hmem)

end Operand

namespace Draft

variable {s : FilterStore}

theorem isBeside_make (hs : s.IsClosed) {className : Value} {d : Draft}
    (h : make s className = .ok d) : d = ⟨(s.push .empty).2,
      { className := className, filter := s.cells.length }⟩ ∧ IsBeside s d (.allOf []) := by
  unfold make at h
  split at h
  · cases h
    have hcollects := collects_push_empty hs
    exact ⟨rfl, hcollects.edited, hcollects.grows, Nat.le_refl _, hcollects.isOwn.lt,
      hcollects.resolve⟩
  · cases h

theorem isBeside_clone {d e : Draft} (hs : d.filters.IsGrouped) (h : d.clone = .ok e) :
    ∃ f, d.filter = .ok f ∧ IsBeside d.filters e f ∧
      e.query = { d.query with filter := e.query.filter } := by
  obtain ⟨⟨new, t⟩, hcopy, h⟩ := exists_of_bind_eq_ok h
  cases h
  obtain ⟨f, hf, halloc⟩ := exists_of_copy hcopy
  have hnew := isCopy_alloc f d.filters
  rw [halloc] at hnew
  refine ⟨f, hf, ⟨fun own => (edited_copy own hs hcopy).1, (grows_of_copy hcopy).1, hnew.le,
    hnew.lt, ?_⟩, rfl⟩
  exact resolve_eq_ok_iff.mpr (resolve?_mono (Nat.le_succ _) hnew.resolve?)

/-- The filter of a query for any of several stands for the choice among those with conditions. -/
theorem isBeside_anyOf (hs : s.IsGrouped) {operands : List Operand}
    (hstored : ∀ q, .query q ∈ operands → q.filter < s.cells.length) {d : Draft}
    (h : anyOf s operands = .ok d) : ∃ qs fs, operands.filter Operand.isGiven = qs.map .query ∧
      List.Forall₂ (fun q f => s.StandsFor q.filter f) qs fs ∧
      IsBeside s d (.anyOf (fs.filter (!·.isEmpty))) := by
  obtain ⟨⟨className, qs⟩, hcombine, h⟩ := exists_of_bind_eq_ok h
  obtain ⟨d₀, hmake, h⟩ := exists_of_bind_eq_ok h
  obtain ⟨⟨ids, t⟩, hcopies, h⟩ := exists_of_bind_eq_ok h
  cases h
  have hgiven := Operand.eq_of_combine hcombine
  have hclosed := hs.isClosed
  obtain ⟨rfl, hmade⟩ := isBeside_make hclosed hmake
  have hpush := hmade.grows
  have hpushed := hpush.isClosed hclosed
  have hqs : ∀ a ∈ qs.map (·.filter), a < s.cells.length :=
    List.forall_mem_map.mpr (Operand.forall_of_combine hcombine hstored)
  obtain ⟨hgrows, fs, hfs, hnews⟩ := copyAll_spec hpushed
    (fun a ha => Nat.lt_of_lt_of_le (hqs a ha) hpush.length_le) hcopies
  have hown := isOwn_push_empty hclosed
  have hcell : t.get s.cells.length = .empty := by
    rw [hgrows.get_eq hown.lt, get_push_self]
  have hids : ∀ a ∈ ids, s.cells.length ≤ a ∧ a < t.cells.length := by
    intro a ha
    obtain ⟨f, _, hcopy⟩ := exists_mem_of_forall₂ hnews ha
    exact ⟨Nat.le_trans hpush.length_le hcopy.le, hcopy.lt⟩
  have hedited : ∀ own, Edited own s (t.addGroup s.cells.length ids) := fun own =>
    edited_addGroup ((hmade.edited own).trans
      (edited_copyAll own ((hmade.edited own).isGrouped hs) hcopies).1) (.inr (Nat.le_refl _)) ids
  have hlt : s.cells.length < (t.addGroup s.cells.length ids).cells.length := by
    rw [length_addGroup]
    exact Nat.lt_of_lt_of_le hown.lt hgrows.length_le
  refine ⟨qs, fs, hgiven, List.forall₂_map_left_iff.mp
    (forall₂_standsFor_of_grows hpush hclosed hqs hfs), hedited,
    (hpush.trans hgrows).addGroup (Nat.le_refl _) hids, Nat.le_refl _, hlt, ?_⟩
  exact resolve_addGroup (hown.grows hgrows) hcell (hnews.imp fun a f ha =>
    ⟨Nat.ne_of_gt (Nat.lt_of_lt_of_le hown.lt ha.le), ha.resolve?⟩)

theorem collects_foldlM (hs : s.IsGrouped) {own : FilterId} (hown : s.cells.length ≤ own)
    {qs : List Query} (hqs : ∀ q ∈ qs, q.filter < s.cells.length) {t u : FilterStore}
    {fs : List Filter} (ht : Collects s own t (.allOf fs))
    (h : qs.foldlM (fun t q => t.append own q.filter) t = .ok u) :
    ∃ fs', List.Forall₂ (fun q f => s.Shows q.filter f) qs fs' ∧
      Collects s own u (.allOf (fs ++ fs')) := by
  induction qs generalizing t fs with
  | nil =>
    cases h
    exact ⟨[], .nil, by rwa [List.append_nil]⟩
  | cons q qs ih =>
    rw [List.foldlM_cons] at h
    obtain ⟨t', ht', h⟩ := exists_of_bind_eq_ok h
    obtain ⟨hq, hqs⟩ := List.forall_mem_cons.mp hqs
    obtain ⟨f, hf, hcollects⟩ := ht.append hs hown hq ht'
    rw [← Filter.allOf_concat] at hcollects
    obtain ⟨fs', hfs, hrest⟩ := ih hqs hcollects h
    rw [List.append_assoc] at hrest
    exact ⟨f :: fs', .cons hf hfs, hrest⟩

/-- The filter of a query for all of several stands for their conditions together. -/
theorem isBeside_allOf (hs : s.IsGrouped) {operands : List Operand}
    (hstored : ∀ q, .query q ∈ operands → q.filter < s.cells.length) {d : Draft}
    (h : allOf s operands = .ok d) : ∃ qs fs, operands.filter Operand.isGiven = qs.map .query ∧
      List.Forall₂ (fun q f => s.Shows q.filter f) qs fs ∧ IsBeside s d (.allOf fs) := by
  obtain ⟨⟨className, qs⟩, hcombine, h⟩ := exists_of_bind_eq_ok h
  obtain ⟨d₀, hmake, h⟩ := exists_of_bind_eq_ok h
  obtain ⟨t, hfold, h⟩ := exists_of_bind_eq_ok h
  cases h
  obtain ⟨rfl, _⟩ := isBeside_make hs.isClosed hmake
  obtain ⟨fs, hfs, hcollects⟩ := collects_foldlM hs (Nat.le_refl _)
    (Operand.forall_of_combine hcombine hstored) (collects_push_empty hs.isClosed) hfold
  exact ⟨qs, fs, Operand.eq_of_combine hcombine, hfs, hcollects.edited, hcollects.grows,
    Nat.le_refl _, hcollects.isOwn.lt, hcollects.resolve⟩

end Draft

end DocQuery
