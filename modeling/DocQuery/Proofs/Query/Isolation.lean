-- SUMMARY: Copies and combined queries share nothing with what they were made of, so later calls on one side leave the other side alone.
import DocQuery.Proofs.Query.Workspace

/-!
# Isolated branches

A group keeps the very filters that it was given, so a call on one filter may change many.
But a copy of a filter or a query, and a query made of several, is put into cells of its
own. No call on what it was made of, or on anything that this leads to, changes what the
branch stands for, however the calls follow each other, and the other way round.
-/

namespace DocQuery

open FilterStore

namespace Workspace

/-! ## What an item is made of -/

/-- The cell of an item, if the item is there. -/
def root? (w : Workspace) : Item → Option FilterId
  | .filter id => if id < w.filters.cells.length then some id else none
  | .query i => (w.queries[i]?).map (·.filter)

/-- The cell is that of the item or is nested in it, at any depth. -/
def Holds (w : Workspace) (x : Item) (a : FilterId) : Prop :=
  ∃ r, w.root? x = some r ∧ w.filters.LeadsTo r a

/-- The filter of an item, with all references followed. -/
def filterOf (w : Workspace) (x : Item) : Except Error Filter :=
  match w.root? x with
  | some r => w.filters.resolve r
  | none => .error .mistyped

/-- An item looks the same in two workspaces: a filter as a whole and in its body, a query in all
    its parts and in its pipeline. -/
def SameView (w w' : Workspace) : Item → Prop
  | .filter id => w'.filters.resolve id = w.filters.resolve id ∧
    w'.filters.compile id = w.filters.compile id
  | .query i => ∃ q, w.queries[i]? = some q ∧ w'.queries[i]? = some q ∧
    (⟨w'.filters, q⟩ : Draft).filter = (⟨w.filters, q⟩ : Draft).filter ∧
    (⟨w'.filters, q⟩ : Draft).pipeline = (⟨w.filters, q⟩ : Draft).pipeline

/-- What a call makes its filter or query of. -/
def Making.sources : Making → List Item
  | .copy id => [.filter id]
  | .clone i => [.query i]
  | .anyOf operands => (operands.filterMap id).map .query
  | .allOf operands => (operands.filterMap id).map .query

/-- The filter that a call makes of the filters of its sources. -/
def Making.content : Making → List Filter → Filter
  | .anyOf _, fs => .anyOf (fs.filter (!·.isEmpty))
  | _, fs => .allOf fs

/-- All calls among the steps are on filters that `own` holds of, or on queries with such a
    filter. -/
def OnlyOn (w : Workspace) (own : FilterId → Prop) : List Step → Prop
  | [] => True
  | s :: later => (∀ a, w.changes s a → own a) ∧ (w.step s).OnlyOn own later

/-- None of the steps is a call on a filter that `own` holds of, or on a query with such a
    filter. -/
def Spares (w : Workspace) (own : FilterId → Prop) (later : List Step) : Prop :=
  w.OnlyOn (fun a => ¬ own a) later

theorem OnlyOn.mono {w : Workspace} {own own' : FilterId → Prop} {later : List Step}
    (h : w.OnlyOn own later) (hown : ∀ a, own a → own' a) : w.OnlyOn own' later := by
  induction later generalizing w with
  | nil => exact h
  | cons s later ih => exact ⟨fun a ha => hown a (h.1 a ha), ih h.2⟩

theorem IsSound.root_lt {w : Workspace} (hw : w.IsSound) {x : Item} {r : FilterId}
    (h : w.root? x = some r) : r < w.filters.cells.length := by
  cases x with
  | filter id =>
    simp only [root?] at h
    split at h <;> cases h
    assumption
  | query i =>
    obtain ⟨q, hq, rfl⟩ := Option.map_eq_some_iff.mp h
    exact hw.stored q (List.mem_of_getElem? hq)

/-- An item holds cells of the store only. -/
theorem IsSound.lt_of_holds {w : Workspace} (hw : w.IsSound) {x : Item} {a : FilterId}
    (h : w.Holds x a) : a < w.filters.cells.length := by
  obtain ⟨r, hroot, hleads⟩ := h
  exact hw.grouped.isClosed.lt_of_leadsTo (hw.root_lt hroot) hleads

/-! ## Calls elsewhere -/

/-- Cells that are spared stay the same, and so do the queries with such a filter. -/
theorem kept_afterAll {w : Workspace} (hw : w.IsSound) {own : FilterId → Prop}
    (hin : ∀ a, own a → a < w.filters.cells.length) {later : List Step} (h : w.Spares own later) :
    w.filters.cells.length ≤ (w.afterAll later).filters.cells.length ∧
      (∀ a, own a → (w.afterAll later).filters.get a = w.filters.get a) ∧
      ∀ (i : Nat) (q : Query), w.queries[i]? = some q → own q.filter →
        (w.afterAll later).queries[i]? = some q := by
  induction later generalizing w with
  | nil => exact ⟨Nat.le_refl _, fun _ _ => rfl, fun _ _ hq _ => hq⟩
  | cons s later ih =>
    obtain ⟨hspares, hlater⟩ := h
    have hfollows := follows_step hw s
    have hle := hfollows.edited.length_le
    obtain ⟨hle', hcells, hqueries⟩ := ih (hfollows.isSound hw)
      (fun a ha => Nat.lt_of_lt_of_le (hin a ha) hle) hlater
    refine ⟨Nat.le_trans hle hle', fun a ha => ?_, fun i q hq ha => ?_⟩
    · rw [← hfollows.edited.get_eq (hin a ha) fun hchanges => hspares a hchanges ha]
      exact hcells a ha
    · exact hqueries i q (hfollows.kept i q hq fun hchanges => hspares _ hchanges ha) ha

theorem pipeline_congr {s t : FilterStore} {q : Query}
    (h : (⟨t, q⟩ : Draft).filter = (⟨s, q⟩ : Draft).filter) :
    (⟨t, q⟩ : Draft).pipeline = (⟨s, q⟩ : Draft).pipeline := by
  have hstage : (⟨t, q⟩ : Draft).filterStage? = (⟨s, q⟩ : Draft).filterStage? := by
    rw [Draft.filterStage?, Draft.filterStage?, h]
  rw [Draft.pipeline, Draft.pipeline, Draft.stages, Draft.stages, hstage]
  rfl

/-- An item looks the same after calls that spare what it holds. -/
theorem sameView_afterAll {w : Workspace} (hw : w.IsSound) {x : Item} {f : Filter}
    (hx : w.filterOf x = .ok f) {later : List Step} (h : w.Spares (w.Holds x) later) :
    SameView w (w.afterAll later) x := by
  unfold filterOf at hx
  split at hx
  · rename_i r hroot
    obtain ⟨hle, hcells, hqueries⟩ := kept_afterAll hw (fun a => hw.lt_of_holds) h
    have hresolve : (w.afterAll later).filters.resolve r = .ok f :=
      resolve_of_sameCells hle hx fun a ha => hcells a ⟨r, hroot, ha⟩
    cases x with
    | filter id =>
      simp only [root?] at hroot
      split at hroot <;> cases hroot
      exact ⟨hresolve.trans hx.symm, by rw [compile_eq hresolve, compile_eq hx]⟩
    | query i =>
      obtain ⟨q, hq, rfl⟩ := Option.map_eq_some_iff.mp hroot
      have hfilter := hresolve.trans hx.symm
      exact ⟨q, hq, hqueries i q hq ⟨q.filter, hroot, .refl⟩, hfilter, pipeline_congr hfilter⟩
  · cases hx

/-! ## Cells of its own -/

/-- What a call made is in new cells, which refer to each other only, and it stands for what the
    call makes of its sources. -/
structure Makes (w : Workspace) (m : Making) (x : Item) (w' : Workspace) : Prop where
  grows : Grows w.filters w'.filters
  root : ∃ r, w'.root? x = some r ∧ w.filters.cells.length ≤ r
  content : ∃ fs, List.Forall₂ (fun y f => w.filterOf y = .ok f) m.sources fs ∧
    w'.filterOf x = .ok (m.content fs)
  queries : ∃ qs, w'.queries = w.queries ++ qs

theorem Makes.root_eq {w w' : Workspace} {m : Making} {x : Item} (h : Makes w m x w') {y : Item}
    {r : FilterId} (hy : w.root? y = some r) : w'.root? y = some r := by
  cases y with
  | filter id =>
    simp only [root?] at hy ⊢
    split at hy <;> cases hy
    rename_i hid
    rw [if_pos (Nat.lt_of_lt_of_le hid h.grows.length_le)]
  | query i =>
    obtain ⟨q, hq, rfl⟩ := Option.map_eq_some_iff.mp hy
    obtain ⟨qs, hqs⟩ := h.queries
    rw [root?, hqs, List.getElem?_append_left (List.getElem?_eq_some_iff.mp hq).1, hq]
    rfl

theorem Makes.filterOf_eq {w w' : Workspace} (hw : w.IsSound) {m : Making} {x : Item}
    (h : Makes w m x w') {y : Item} {f : Filter} (hy : w.filterOf y = .ok f) :
    w'.filterOf y = .ok f := by
  unfold filterOf at hy ⊢
  split at hy
  · rename_i r hroot
    rw [h.root_eq hroot]
    exact h.grows.resolve_eq_ok hw.grouped.isClosed (hw.root_lt hroot) hy
  · cases hy

theorem le_of_refers {s t : FilterStore} (h : Grows s t) {a b : FilterId}
    (ha : s.cells.length ≤ a) (hrefers : t.Refers a b) : s.cells.length ≤ b := by
  obtain ⟨cells, hcells, hinner⟩ := h.cells
  obtain ⟨g, hg, hb⟩ := hrefers
  unfold FilterStore.get at hg
  rw [hcells, List.getElem?_append_right ha] at hg
  cases hcell : cells[a - s.cells.length]? with
  | none =>
    rw [hcell] at hg
    cases hg
  | some c =>
    rw [hcell] at hg
    exact (hinner c (List.mem_of_getElem? hcell) g hg b hb).1

theorem lt_of_refers {s t : FilterStore} (h : Grows s t) (hs : s.IsClosed) {a b : FilterId}
    (ha : a < s.cells.length) (hrefers : t.Refers a b) : b < s.cells.length := by
  obtain ⟨g, hg, hb⟩ := hrefers
  rw [h.get_eq ha] at hg
  obtain ⟨c, hc, hg⟩ := mem_get hg
  exact hs c hc g hg b hb

/-- New cells lead to new cells, and the cells that were there to cells that were there. -/
theorem Makes.disjoint {w w' : Workspace} (hw : w.IsSound) {m : Making} {x : Item}
    (h : Makes w m x w') {y : Item} (hy : (w.root? y).isSome = true) {a : FilterId}
    (hxa : w'.Holds x a) : ¬ w'.Holds y a := by
  obtain ⟨r, hr, hnew⟩ := h.root
  obtain ⟨r', hr', hleads⟩ := hxa
  obtain rfl : r = r' := Option.some.inj (hr.symm.trans hr')
  have hle : w.filters.cells.length ≤ a :=
    hleads.invariant hnew fun b c hb hrefers => le_of_refers h.grows hb hrefers
  rintro ⟨p, hp, hleads'⟩
  obtain ⟨p', hp'⟩ := Option.isSome_iff_exists.mp hy
  obtain rfl : p' = p := Option.some.inj ((h.root_eq hp').symm.trans hp)
  have hlt : a < w.filters.cells.length := hleads'.invariant (hw.root_lt hp') fun b c hb hrefers =>
    lt_of_refers h.grows hw.grouped.isClosed hb hrefers
  exact Nat.not_lt_of_le hle hlt

/-! ## What each call makes -/

theorem filterOf_query {w : Workspace} {i : Nat} {q : Query} (hq : w.queries[i]? = some q) :
    w.filterOf (.query i) = w.filters.resolve q.filter := by
  simp only [filterOf, root?, hq, Option.map_some]

/-- The queries among the operands are those at their places. -/
theorem forall₂_sources {w : Workspace} {operands : List (Option Nat)} {qs : List Query}
    (hgiven : (operands.map w.operand).filter Operand.isGiven = qs.map .query) {fs : List Filter}
    (hfs : List.Forall₂ (fun q f => w.filters.resolve q.filter = .ok f) qs fs) :
    List.Forall₂ (fun y f => w.filterOf y = .ok f) ((operands.filterMap id).map .query) fs := by
  induction operands generalizing qs fs with
  | nil =>
    obtain rfl := List.map_eq_nil_iff.mp hgiven.symm
    cases hfs
    exact .nil
  | cons i? operands ih =>
    cases i? with
    | none => exact ih hgiven hfs
    | some i =>
      rw [List.map_cons, operand] at hgiven
      split at hgiven
      · rename_i q hq
        rw [List.filter_cons_of_pos rfl] at hgiven
        cases qs with
        | nil => cases hgiven
        | cons q' qs =>
          rw [List.map_cons, List.cons.injEq] at hgiven
          obtain ⟨hhead, hrest⟩ := hgiven
          cases hhead
          obtain ⟨f, fs', hf, hfs', rfl⟩ := List.forall₂_cons_left_iff.mp hfs
          exact .cons ((filterOf_query hq).trans hf) (ih hrest hfs')
      · rw [List.filter_cons_of_pos rfl] at hgiven
        cases qs <;> cases hgiven

/-- A query beside the filters is kept as what the call makes. -/
theorem makes_keep {w : Workspace} {m : Making} {d : Draft} {fs : List Filter}
    (hsources : List.Forall₂ (fun y f => w.filterOf y = .ok f) m.sources fs)
    (h : d.IsBeside w.filters (m.content fs)) :
    Makes w m (w.keep d).1 (w.keep d).2 := by
  have hplace : (w.queries ++ [d.query])[w.queries.length]? = some d.query := by simp
  have hroot : (w.keep d).2.root? (.query w.queries.length) = some d.query.filter := by
    simp only [root?, keep, hplace, Option.map_some]
  refine ⟨h.grows, ⟨d.query.filter, hroot, h.le⟩, ⟨fs, hsources, ?_⟩, [d.query], rfl⟩
  show (w.keep d).2.filterOf (.query w.queries.length) = _
  rw [filterOf_query hplace]
  exact h.filter

theorem makes_of_make {w : Workspace} (hw : w.IsSound) (hacyclic : w.filters.IsAcyclic)
    {m : Making} (hsources : ∀ y ∈ m.sources, (w.root? y).isSome = true) {x : Item}
    {w' : Workspace} (h : w.make m = .ok (x, w')) : Makes w m x w' := by
  cases m with
  | copy id =>
    obtain ⟨⟨new, t⟩, hcopy, h⟩ := exists_of_map_eq_ok h
    cases h
    obtain ⟨f, hf, halloc⟩ := exists_of_copy hcopy
    have hnew := isCopy_alloc f w.filters
    rw [halloc] at hnew
    have hroot : (⟨t, w.queries⟩ : Workspace).root? (.filter new) = some new := if_pos hnew.lt
    have hid : w.filterOf (.filter id) = .ok f := by
      obtain ⟨r, hr⟩ := Option.isSome_iff_exists.mp (hsources (.filter id) (.head _))
      obtain rfl : id = r := by
        simp only [root?] at hr
        split at hr <;> cases hr
        rfl
      rw [filterOf, hr]
      exact hf
    refine ⟨(grows_of_copy hcopy).1, ⟨new, hroot, hnew.le⟩, ⟨[f], .cons hid .nil, ?_⟩, [], by simp⟩
    show _ = Except.ok (Filter.allOf [f])
    rw [Filter.allOf_singleton, filterOf, hroot]
    exact resolve_eq_ok_iff.mpr (resolve?_mono (Nat.le_succ _) hnew.resolve?)
  | clone i =>
    simp only [make] at h
    split at h
    · rename_i q hq
      obtain ⟨d, hd, h⟩ := exists_of_map_eq_ok h
      cases h
      obtain ⟨f, hf, hbeside, _⟩ := Draft.isBeside_clone hw.grouped hd
      refine makes_keep (.cons ((filterOf_query hq).trans hf) .nil) ?_
      show d.IsBeside w.filters (Filter.allOf [f])
      rwa [Filter.allOf_singleton]
    · cases h
  | anyOf operands =>
    obtain ⟨d, hd, h⟩ := exists_of_map_eq_ok h
    cases h
    obtain ⟨qs, fs, hgiven, hfs, hbeside⟩ :=
      Draft.isBeside_anyOf hw.grouped (fun q hq => stored_operand hw hq) hd
    refine makes_keep (forall₂_sources hgiven (hfs.imp fun q f hf => ?_)) hbeside
    obtain ⟨f', hf'⟩ := hacyclic.exists_resolve q.filter
    rw [hf', standsFor_unique _ (standsFor_of_resolve hf') hf]
  | allOf operands =>
    obtain ⟨d, hd, h⟩ := exists_of_map_eq_ok h
    cases h
    obtain ⟨qs, fs, hgiven, hfs, hbeside⟩ :=
      Draft.isBeside_allOf hw.grouped (fun q hq => stored_operand hw hq) hd
    refine makes_keep (forall₂_sources hgiven (hfs.imp fun q f hf => ?_)) hbeside
    obtain ⟨f', hf'⟩ := hacyclic.exists_resolve q.filter
    rw [hf', (standsFor_of_resolve hf').shows.unique hf]

/-! ## Branches and their sources -/

/-- What a call makes of filters or queries stands for what it was made of, and shares no cell
    with it. So calls on the sources, or on anything that they lead to, leave the branch as it is,
    and calls on the branch, or on anything nested in it, leave the sources as they are. Calls on
    anything else may come between them, as long as they spare the one that is looked at. -/
theorem branch_isolated (steps : List Step)
    (hacyclic : (empty.afterAll steps).filters.IsAcyclic) {m : Making}
    (hsources : ∀ y ∈ m.sources, ((empty.afterAll steps).root? y).isSome = true) {x : Item}
    {w : Workspace} (hmake : (empty.afterAll steps).make m = .ok (x, w)) :
    (∃ fs, List.Forall₂ (fun y f => (empty.afterAll steps).filterOf y = .ok f) m.sources fs ∧
      w.filterOf x = .ok (m.content fs)) ∧
    (∀ y ∈ m.sources, ∀ a, w.Holds x a → ¬ w.Holds y a) ∧
    (∀ later, w.OnlyOn (fun a => ∃ y ∈ m.sources, w.Holds y a) later →
      SameView w (w.afterAll later) x) ∧
    (∀ y ∈ m.sources, ∀ later, w.OnlyOn (w.Holds x) later → SameView w (w.afterAll later) y) ∧
    (∀ later, w.Spares (w.Holds x) later → SameView w (w.afterAll later) x) ∧
    ∀ y ∈ m.sources, ∀ later, w.Spares (w.Holds y) later → SameView w (w.afterAll later) y := by
  have hsound := isSound_afterAll isSound_empty steps
  have hmakes := makes_of_make hsound hacyclic hsources hmake
  have hw : w.IsSound := (follows_make hsound (fun _ => False) hmake).isSound hsound
  obtain ⟨fs, hfs, hx⟩ := hmakes.content
  have hdisjoint : ∀ y ∈ m.sources, ∀ a, w.Holds x a → ¬ w.Holds y a := fun y hy a =>
    hmakes.disjoint hsound (hsources y hy)
  have hbranch : ∀ later, w.Spares (w.Holds x) later → SameView w (w.afterAll later) x :=
    fun later => sameView_afterAll hw hx
  have hsource : ∀ y ∈ m.sources, ∀ later, w.Spares (w.Holds y) later →
      SameView w (w.afterAll later) y := by
    intro y hy later hlater
    obtain ⟨f, _, hf⟩ := exists_mem_of_forall₂ hfs hy
    exact sameView_afterAll hw (hmakes.filterOf_eq hsound hf) hlater
  refine ⟨⟨fs, hfs, hx⟩, hdisjoint, fun later hlater => hbranch later ?_,
    fun y hy later hlater => hsource y hy later ?_, hbranch, hsource⟩
  · exact hlater.mono fun a ⟨y, hy, ha⟩ hxa => hdisjoint y hy a hxa ha
  · exact hlater.mono fun a hxa => hdisjoint y hy a hxa

/-- A query with a shared alternative is copied. Then the alternative grows, and so does the
    query, but the copy does not. -/
theorem branch_isolated_songs :
    let w := empty.afterAll [.newFilter, .add 0 (.text "genre") (.text "eq") (.text "rock"),
      .newQuery (.text "Song"), .modify 0 (.choose [.filter 0])]
    let later := [.add 0 (.text "plays") (.text "gt") (.int 3),
      .modify 0 (.constrain (.text "year") (.text "lt") (.int 1990))]
    ∃ w', w.make (.clone 0) = .ok (.query 1, w') ∧
      w'.OnlyOn (fun a => ∃ y ∈ (Making.clone 0).sources, w'.Holds y a) later ∧
      SameView w' (w'.afterAll later) (.query 1) ∧
      (w'.afterAll later).filterOf (.query 0) ≠ w'.filterOf (.query 0) := by
  intro w later
  have hacyclic : w.filters.IsAcyclic := by
    refine isAcyclic_of_lt ?_
    rintro (_ | _ | a) b ⟨g, hg, hb⟩
    · cases hg
    · obtain rfl := List.mem_singleton.mp hg
      obtain rfl := List.mem_singleton.mp hb
      decide
    · cases hg
  have hsources : ∀ y ∈ (Making.clone 0).sources, (w.root? y).isSome = true := by
    intro y hy
    obtain rfl := List.mem_singleton.mp hy
    rfl
  obtain ⟨w', hmake⟩ : ∃ w', w.make (.clone 0) = .ok (.query 1, w') := ⟨_, rfl⟩
  have honly : w'.OnlyOn (fun a => ∃ y ∈ (Making.clone 0).sources, w'.Holds y a) later := by
    cases hmake
    refine ⟨fun a ha => ?_, fun a ha => ?_, trivial⟩
    · obtain rfl : a = 0 := ha
      exact ⟨.query 0, .head _, 1, rfl, .single ⟨[0], .head _, .head _⟩⟩
    · obtain ⟨q, hq, rfl⟩ := ha
      cases hq
      exact ⟨.query 0, .head _, 1, rfl, .refl⟩
  refine ⟨w', hmake, honly, (branch_isolated _ hacyclic hsources hmake).2.2.1 later honly, ?_⟩
  cases hmake
  intro heq
  cases heq

end Workspace

end DocQuery
