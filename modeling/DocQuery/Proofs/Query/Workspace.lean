-- SUMMARY: Everything that a caller builds, step by step, and that no group is ever empty whatever is built.
import DocQuery.Proofs.Filter.Body
import DocQuery.Proofs.Query.Copies

/-!
# Workspaces

Callers make filters and queries, change them and make new ones of them, in any order and
with shared alternatives. A workspace holds all that was made so far. Each step edits the
store of filters, so in every workspace that can be reached all groups have alternatives,
all alternatives have conditions, and so do the bodies that are compiled of them.
-/

namespace DocQuery

/-- All filters and queries that a caller has made. -/
structure Workspace where
  filters : FilterStore
  queries : List Query

namespace Workspace

/-! ## Steps -/

/-- A filter or a query, by its place. -/
inductive Item where
  | filter (id : FilterId)
  | query (i : Nat)

/-- A call that makes a filter of another one, or a query of others. -/
inductive Making where
  | copy (id : FilterId)
  | clone (i : Nat)
  | anyOf (operands : List (Option Nat))
  | allOf (operands : List (Option Nat))

/-- A call of a caller. -/
inductive Step where
  | newFilter
  | newQuery (className : Value)
  /-- A constraint for a filter. -/
  | add (id : FilterId) (field operator value : Value)
  /-- A group of alternatives for a filter. -/
  | addGroup (id : FilterId) (alternatives : List FilterId)
  | modify (i : Nat) (m : Modifier)
  | make (m : Making)

/-- Nothing has been made. -/
def empty : Workspace := ⟨.empty, []⟩

/-- The workspace with a new query, and the place of the query. -/
def keep (w : Workspace) (d : Draft) : Item × Workspace :=
  (.query w.queries.length, ⟨d.filters, w.queries ++ [d.query]⟩)

/-- What is handed over for the place of a query. -/
def operand (w : Workspace) : Option Nat → Operand
  | none => .nothing
  | some i =>
    match w.queries[i]? with
    | some q => .query q
    | none => .other

/-- What a call makes, and the workspace with it. -/
def make (w : Workspace) : Making → Except Error (Item × Workspace)
  | .copy id => (w.filters.copy id).map fun (new, filters) =>
    (.filter new, { w with filters := filters })
  | .clone i =>
    match w.queries[i]? with
    | some q => (Draft.clone ⟨w.filters, q⟩).map w.keep
    | none => .error .mistyped
  | .anyOf operands => (Draft.anyOf w.filters (operands.map w.operand)).map w.keep
  | .allOf operands => (Draft.allOf w.filters (operands.map w.operand)).map w.keep

/-- What a step leaves. A step that fails leaves what it did before it failed. -/
def step (w : Workspace) : Step → Workspace
  | .newFilter => { w with filters := (w.filters.push .empty).2 }
  | .newQuery className =>
    match Draft.make w.filters className with
    | .ok d => (w.keep d).2
    | .error _ => w
  | .add id field operator value =>
    match w.filters.add id field operator value with
    | .ok filters => { w with filters := filters }
    | .error _ => w
  | .addGroup id alternatives => { w with filters := w.filters.addGroup id alternatives }
  | .modify i m =>
    match w.queries[i]? with
    | some q =>
      let d := (Draft.modify ⟨w.filters, q⟩ m).state
      ⟨d.filters, w.queries.set i d.query⟩
    | none => w
  | .make m =>
    match w.make m with
    | .ok (_, w') => w'
    | .error _ => w

/-- The workspace after some steps. -/
def afterAll (w : Workspace) (steps : List Step) : Workspace :=
  steps.foldl step w

/-- The step is a call on the filter at a place, or on the query whose filter it is. -/
def changes (w : Workspace) : Step → FilterId → Prop
  | .add id .., a => a = id
  | .addGroup id _, a => a = id
  | .modify i _, a => ∃ q, w.queries[i]? = some q ∧ a = q.filter
  | _, _ => False

end Workspace

/-! ## What a call does to the store -/

open FilterStore

theorem Attempt.each_induction {σ α : Type} {step : σ → α → Except Error σ} {P : σ → Prop}
    (hstep : ∀ s a t, P s → step s a = .ok t → P t) {s : σ} (hs : P s) (as : List α) :
    P (each step s as).state := by
  induction as generalizing s with
  | nil => exact hs
  | cons a as ih =>
    unfold each
    split
    · rename_i t ht
      exact ih (hstep s a t hs ht)
    · exact hs

namespace Draft

theorem edited_alternativeIds (own : FilterId → Prop) {s t : FilterStore} (hs : s.IsGrouped)
    {as : List Alternative} {ids : List FilterId} (h : alternativeIds s as = .ok (ids, t)) :
    Edited own s t := by
  induction as generalizing s ids with
  | nil =>
    cases h
    exact .refl
  | cons a as ih =>
    obtain ⟨⟨id, s'⟩, hid, h⟩ := exists_of_bind_eq_ok h
    obtain ⟨⟨ids, t'⟩, hids, h⟩ := exists_of_bind_eq_ok h
    cases h
    have hedited : Edited own s s' := by
      cases a with
      | filter id =>
        cases hid
        exact .refl
      | query q => exact (edited_copy own hs hid).1
      | other => cases hid
    exact hedited.trans (ih (hedited.isGrouped hs) hids)

/-- A modifier edits the filter of its query and no other. -/
theorem edited_modify {d : Draft} (hs : d.filters.IsGrouped) (m : Modifier) :
    Edited (· = d.query.filter) d.filters (d.modify m).state.filters ∧
      (d.modify m).state.query.filter = d.query.filter := by
  let P (e : Draft) : Prop :=
    Edited (· = d.query.filter) d.filters e.filters ∧ e.query.filter = d.query.filter
  have hd : P d := ⟨.refl, rfl⟩
  have hconstrain : ∀ {e e' : Draft} {field operator value : Value}, P e →
      e.constrain field operator value = .ok e' → P e' := by
    intro e e' field operator value he h
    obtain ⟨t, ht, rfl⟩ := exists_of_map_eq_ok h
    exact ⟨he.1.trans (edited_add he.2 ht), he.2⟩
  have hstep : ∀ {x : Except Error Draft}, (∀ e, x = .ok e → P e) → P (Attempt.ofStep d x).state := by
    intro x hx
    cases x with
    | ok e => exact hx e rfl
    | error _ => exact hd
  show P (d.modify m).state
  cases m with
  | constrain field operator value => exact hstep fun e he => hconstrain hd he
  | constrainAll conditions =>
    cases conditions with
    | map entries =>
      refine Attempt.each_induction (fun e entry e' he h => ?_) hd entries
      unfold addCondition at h
      split at h
      · exact hconstrain he h
      · cases h
    | _ => exact hd
  | choose alternatives =>
    refine hstep fun e he => ?_
    obtain ⟨⟨ids, t⟩, hids, he⟩ := exists_of_bind_eq_ok he
    cases he
    refine ⟨edited_addGroup (edited_alternativeIds _ hs hids) (.inl ?_) ids, rfl⟩
    rfl
  | order orders =>
    refine Attempt.each_induction (fun e o e' he h => ?_) hd orders
    obtain ⟨_, _, rfl⟩ := exists_of_map_eq_ok h
    exact he
  | _ => exact hd

end Draft

namespace Workspace

/-! ## What a step does -/

/-- The groups of all filters have alternatives with conditions, and the filters of all queries
    are there. -/
structure IsSound (w : Workspace) : Prop where
  grouped : w.filters.IsGrouped
  stored : ∀ q ∈ w.queries, q.filter < w.filters.cells.length

theorem isSound_empty : IsSound empty :=
  ⟨isGrouped_empty, nofun⟩

/-- What may become of a workspace in which only new filters and filters that `own` holds of are
    changed. -/
structure Follows (w : Workspace) (own : FilterId → Prop) (w' : Workspace) : Prop where
  edited : Edited own w.filters w'.filters
  stored : ∀ q ∈ w'.queries, q.filter < w'.filters.cells.length
  kept : ∀ (i : Nat) (q : Query), w.queries[i]? = some q → ¬ own q.filter → w'.queries[i]? = some q

theorem Follows.isSound {w w' : Workspace} {own : FilterId → Prop} (h : Follows w own w')
    (hw : w.IsSound) : w'.IsSound :=
  ⟨h.edited.isGrouped hw.grouped, h.stored⟩

variable {w : Workspace} (hw : w.IsSound)

include hw in
/-- A step that leaves the queries as they are. -/
theorem follows_of_edited {own : FilterId → Prop} {filters : FilterStore}
    (h : Edited own w.filters filters) : Follows w own { w with filters := filters } :=
  ⟨h, fun q hq => Nat.lt_of_lt_of_le (hw.stored q hq) h.length_le, fun _ _ hq _ => hq⟩

include hw in
/-- A query that was made beside the filters is kept. -/
theorem follows_keep (own : FilterId → Prop) {d : Draft} {f : Filter}
    (h : d.IsBeside w.filters f) : Follows w own (w.keep d).2 := by
  refine ⟨h.edited own, fun q hq => ?_, fun i q hq _ => ?_⟩
  · rcases List.mem_append.mp hq with hq | hq
    · exact Nat.lt_of_lt_of_le (hw.stored q hq) h.grows.length_le
    · obtain rfl := List.mem_singleton.mp hq
      exact h.lt
  · show (w.queries ++ [d.query])[i]? = some q
    rw [List.getElem?_append_left (List.getElem?_eq_some_iff.mp hq).1, hq]

include hw in
theorem stored_operand {operands : List (Option Nat)} {q : Query}
    (hq : .query q ∈ operands.map w.operand) : q.filter < w.filters.cells.length := by
  obtain ⟨i?, _, hi⟩ := List.mem_map.mp hq
  unfold operand at hi
  split at hi
  · cases hi
  · split at hi
    · rename_i hget
      cases hi
      exact hw.stored q (List.mem_of_getElem? hget)
    · cases hi

include hw in
theorem follows_make (own : FilterId → Prop) {m : Making} {x : Item} {w' : Workspace}
    (h : w.make m = .ok (x, w')) : Follows w own w' := by
  cases m with
  | copy id =>
    obtain ⟨⟨new, t⟩, hcopy, h⟩ := exists_of_map_eq_ok h
    cases h
    exact follows_of_edited hw (edited_copy own hw.grouped hcopy).1
  | clone i =>
    simp only [make] at h
    split at h
    · obtain ⟨d, hd, h⟩ := exists_of_map_eq_ok h
      cases h
      obtain ⟨f, _, hbeside, _⟩ := Draft.isBeside_clone hw.grouped hd
      exact follows_keep hw own hbeside
    · cases h
  | anyOf operands =>
    obtain ⟨d, hd, h⟩ := exists_of_map_eq_ok h
    cases h
    obtain ⟨_, _, _, _, hbeside⟩ :=
      Draft.isBeside_anyOf hw.grouped (fun q hq => stored_operand hw hq) hd
    exact follows_keep hw own hbeside
  | allOf operands =>
    obtain ⟨d, hd, h⟩ := exists_of_map_eq_ok h
    cases h
    obtain ⟨_, _, _, _, hbeside⟩ :=
      Draft.isBeside_allOf hw.grouped (fun q hq => stored_operand hw hq) hd
    exact follows_keep hw own hbeside

include hw in
/-- A step edits the filter that it is a call on, and adds new filters. -/
theorem follows_step (s : Step) : Follows w (w.changes s) (w.step s) := by
  have hsame : Follows w (w.changes s) w := follows_of_edited hw .refl
  cases s with
  | newFilter => exact follows_of_edited hw (edited_push_empty _ _)
  | newQuery className =>
    simp only [step]
    split
    · rename_i d hd
      exact follows_keep hw _ (Draft.isBeside_make hw.grouped.isClosed hd).2
    · exact hsame
  | add id field operator value =>
    simp only [step]
    split
    · rename_i filters hadd
      exact follows_of_edited hw (edited_add rfl hadd)
    · exact hsame
  | addGroup id alternatives =>
    refine follows_of_edited hw (edited_addGroup .refl (.inl ?_) alternatives)
    rfl
  | modify i m =>
    simp only [step]
    split
    · rename_i q hq
      obtain ⟨hedited, hfilter⟩ := Draft.edited_modify (d := ⟨w.filters, q⟩) hw.grouped m
      have hin := hw.stored q (List.mem_of_getElem? hq)
      refine ⟨hedited.mono fun a ha => ⟨q, hq, ha⟩, fun q' hq' => ?_, fun j q' hq' hout => ?_⟩
      · rcases List.mem_or_eq_of_mem_set hq' with hmem | rfl
        · exact Nat.lt_of_lt_of_le (hw.stored q' hmem) hedited.length_le
        · rw [hfilter]
          exact Nat.lt_of_lt_of_le hin hedited.length_le
      · have hne : i ≠ j := by
          rintro rfl
          exact hout ⟨q', hq', rfl⟩
        rw [List.getElem?_set_ne hne, hq']
    · exact hsame
  | make m =>
    simp only [step]
    split
    · rename_i x w' hmake
      exact follows_make hw _ hmake
    · exact hsame

/-- Whatever is built, the groups of all filters have alternatives with conditions. -/
theorem isSound_afterAll (hw : w.IsSound) (steps : List Step) : (w.afterAll steps).IsSound := by
  induction steps generalizing w with
  | nil => exact hw
  | cons s steps ih => exact ih ((follows_step hw s).isSound hw)

/-! ## What is compiled -/

/-- The match stage of a filter that names fields has a body with conditions. -/
theorem body_of_filterStage? {s : FilterStore} (hs : s.IsGrouped) {q : Query}
    (hfields : s.NamesFields q.filter) {v : Value}
    (h : (⟨s, q⟩ : Draft).filterStage? = .ok (some (.filter v))) :
    ∃ body : MatchBody, v = .object body ∧ body ≠ [] := by
  obtain ⟨f, hf, h⟩ := exists_of_bind_eq_ok h
  replace hf : s.resolve q.filter = .ok f := hf
  unfold Pipeline.filterStage? at h
  split at h
  · cases h
  · rename_i hgiven
    obtain ⟨body, hbody, hv⟩ := exists_of_map_eq_ok h
    cases hv
    rw [← compile_eq hf] at hbody
    refine ⟨body, rfl, fun hnil => hgiven ?_⟩
    rw [isEmpty_of_resolve? (resolve_eq_ok_iff.mp hf)]
    exact (isSound_compileWithin hs hfields hbody).2.mp hnil

/-- The only match stage of a query is that of its filter. -/
theorem filterStage?_of_mem_stages {d : Draft} {stages : List Stage} (h : d.stages = .ok stages)
    {v : Value} (hv : .filter v ∈ stages) : d.filterStage? = .ok (some (.filter v)) := by
  rcases Draft.mem_stages_cases h hv with hv | hv | hv | hv | hv
  · exact hv
  · cases Pipeline.eq_of_sortStage? hv
  · cases Pipeline.eq_of_skipStage? hv
  · cases Pipeline.eq_of_limitStage? hv
  · cases hv

/-- In a workspace that can be reached by any steps, every group has alternatives and every
    alternative has conditions. So the body of a filter that names fields is empty only if the
    filter is, every list at a logical position of it has members, which are bodies with
    conditions, and every match stage has a body with conditions. -/
theorem groups_given (steps : List Step) :
    let w := empty.afterAll steps
    (∀ id, ∀ g ∈ (w.filters.get id).groups, g ≠ [] ∧ ∀ a ∈ g, (w.filters.get a).isEmpty = false) ∧
    (∀ id, w.filters.NamesFields id → ∀ body, w.filters.compile id = .ok body →
      (body = [] ↔ (w.filters.get id).isEmpty = true) ∧
        ∀ v, Filter.AtLogical (.object body) v → Filter.ListsGiven v) ∧
    ∀ q : Query, w.filters.NamesFields q.filter →
      (∀ v, (⟨w.filters, q⟩ : Draft).filterStage? = .ok (some (.filter v)) →
        ∃ body : MatchBody, v = .object body ∧ body ≠ []) ∧
      ∀ stages, (⟨w.filters, q⟩ : Draft).stages = .ok stages → ∀ v, .filter v ∈ stages →
        ∃ body : MatchBody, v = .object body ∧ body ≠ [] := by
  intro w
  have hs : w.filters.IsGrouped := (isSound_afterAll isSound_empty steps).grouped
  refine ⟨hs, fun id hfields body hbody => ?_, fun q hfields => ⟨fun v hv => ?_, ?_⟩⟩
  · obtain ⟨hsound, hempty⟩ := isSound_compileWithin hs hfields hbody
    exact ⟨hempty, hsound⟩
  · exact body_of_filterStage? hs hfields hv
  · intro stages hstages v hv
    exact body_of_filterStage? hs hfields (filterStage?_of_mem_stages hstages hv)

/-- An alternative grows after it was offered, and an empty one is left out. -/
theorem groups_given_songs :
    let w := empty.afterAll [.newFilter, .newFilter, .newFilter,
      .add 1 (.text "genre") (.text "eq") (.text "rock"), .addGroup 0 [1, 2],
      .add 1 (.text "plays") (.text "gt") (.int 3), .make (.copy 0)]
    w.filters.NamesFields 4 ∧ (w.filters.get 4).isEmpty = false ∧
      ∃ body, w.filters.compile 4 = .ok body ∧ body ≠ [] ∧ Filter.ListsGiven (.object body) := by
  intro w
  have hcells : w.filters.cells = [⟨[], [[1]]⟩,
      ⟨[⟨"genre", .equal, .text "rock"⟩, ⟨"plays", .greater, .int 3⟩], []⟩, .empty,
      ⟨[⟨"genre", .equal, .text "rock"⟩, ⟨"plays", .greater, .int 3⟩], []⟩, ⟨[], [[3]]⟩] := rfl
  have hfields : w.filters.NamesFields 4 := by
    refine namesFields_of_forall ?_ 4
    rw [hcells]
    decide
  have hgiven : (w.filters.get 4).isEmpty = false := rfl
  obtain ⟨body, hbody⟩ : ∃ body, w.filters.compile 4 = .ok body := ⟨_, rfl⟩
  obtain ⟨hempty, hlists⟩ := (groups_given _).2.1 4 hfields body hbody
  refine ⟨hfields, hgiven, body, hbody, fun hnil => ?_, hlists _ .self⟩
  rw [hempty.mp hnil] at hgiven
  cases hgiven

end Workspace

end DocQuery
