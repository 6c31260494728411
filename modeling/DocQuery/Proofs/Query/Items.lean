-- SUMMARY: Calls with several items handle one after the other, and a call that fails leaves what it did before the item that failed.
import DocQuery.Proofs.Query.Workspace

/-!
# Calls with several items

A call with orderings, or with a mapping of conditions, handles its items one after the other
and stops at the first that fails. So it acts as a row of calls with one item each. When it
stops, the query is as the call with the items before that one alone would have left it: these
are added, and nothing else has changed. Every other call that fails leaves the query as it was.
-/

namespace DocQuery

namespace Attempt

variable {σ α : Type} {step : σ → α → Except Error σ}

/-! ## Steps for each item -/

theorem each_append (s : σ) (as bs : List α) : each step s (as ++ bs) =
    match each step s as with
    | ⟨t, none⟩ => each step t bs
    | failed => failed := by
  induction as generalizing s with
  | nil => simp only [List.nil_append, each]
  | cons a as ih =>
    simp only [List.cons_append, each]
    cases step s a with
    | ok t => exact ih t
    | error e => rfl

theorem each_singleton (s : σ) (a : α) : each step s [a] = ofStep s (step s a) := by
  simp only [each]
  cases step s a with
  | ok t => rfl
  | error e => rfl

/-- Steps end early where one of them fails, with what those before it did. -/
theorem each_eq_fault_iff {s t : σ} {items : List α} {e : Error} :
    each step s items = ⟨t, some e⟩ ↔ ∃ done a rest, items = done ++ a :: rest ∧
      each step s done = ⟨t, none⟩ ∧ step t a = .error e := by
  constructor
  · intro h
    induction items generalizing s with
    | nil => cases h
    | cons a items ih =>
      simp only [each] at h
      cases hstep : step s a with
      | ok s' =>
        simp only [hstep] at h
        obtain ⟨done, b, rest, hitems, hdone, hfails⟩ := ih h
        refine ⟨a :: done, b, rest, congrArg (a :: ·) hitems, ?_, hfails⟩
        simp only [each, hstep]
        exact hdone
      | error e' =>
        simp only [hstep] at h
        cases h
        exact ⟨[], a, items, rfl, rfl, hstep⟩
  · rintro ⟨done, a, rest, rfl, hdone, hfails⟩
    simp only [each_append, hdone, each, hfails]

theorem ofStep_eq_fault_iff {s t : σ} {x : Except Error σ} {e : Error} :
    ofStep s x = ⟨t, some e⟩ ↔ t = s ∧ x = .error e := by
  cases x with
  | ok s' => simp [ofStep]
  | error e' => simp [ofStep, eq_comm]

end Attempt

namespace Draft

/-- What a row of calls leaves of a query. The first that fails is the last. -/
def modifyAll (d : Draft) : List Modifier → Attempt Draft
  | [] => ⟨d, none⟩
  | m :: ms =>
    match d.modify m with
    | ⟨s, none⟩ => s.modifyAll ms
    | failed => failed

/-- Calls that do the same one by one do the same in a row. -/
theorem modifyAll_congr {ms ms' : List Modifier}
    (h : List.Forall₂ (fun m m' => ∀ s : Draft, s.modify m = s.modify m') ms ms') (d : Draft) :
    d.modifyAll ms = d.modifyAll ms' := by
  induction h generalizing d with
  | nil => rfl
  | cons hm _ ih => simp only [modifyAll, hm, ih]

/-- A call stops at an item. What it did with the items before stays, as if it had been made with
    these alone, and the item fails as it does alone. -/
structure StopsAt {α : Type} (call : List α → Modifier) (d : Draft) (items done : List α) (a : α)
    (s : Draft) (e : Error) : Prop where
  items : ∃ rest, items = done ++ a :: rest
  before : d.modify (call done) = ⟨s, none⟩
  fails : s.modify (call [a]) = ⟨s, some e⟩
  pipeline : s.pipeline = (d.modify (call done)).state.pipeline

/-! ## Calls that handle their items one after the other -/

section Items

variable {α : Type} {call : List α → Modifier} {step : Draft → α → Except Error Draft}
  (hcall : ∀ d items, d.modify (call items) = Attempt.each step d items)

include hcall

/-- A call with several items acts as a row of calls, with one item each. -/
theorem modifyAll_items (d : Draft) (items : List α) :
    d.modifyAll (items.map fun a => call [a]) = d.modify (call items) := by
  induction items generalizing d with
  | nil => simp only [List.map_nil, modifyAll, hcall, Attempt.each]
  | cons a items ih =>
    simp only [List.map_cons, modifyAll, hcall, Attempt.each]
    cases step d a with
    | ok s => simp only [ih, hcall]
    | error e => rfl

/-- A call with several items fails exactly when it stops at one of them. -/
theorem modify_eq_fault_iff {d s : Draft} {items : List α} {e : Error} :
    d.modify (call items) = ⟨s, some e⟩ ↔ ∃ done a, StopsAt call d items done a s e := by
  simp only [hcall, Attempt.each_eq_fault_iff]
  constructor
  · rintro ⟨done, a, rest, hitems, hdone, hfails⟩
    have hbefore : d.modify (call done) = ⟨s, none⟩ := (hcall d done).trans hdone
    refine ⟨done, a, ⟨rest, hitems⟩, hbefore, ?_, by rw [hbefore]⟩
    simp only [hcall, Attempt.each_singleton]
    exact Attempt.ofStep_eq_fault_iff.mpr ⟨rfl, hfails⟩
  · rintro ⟨done, a, ⟨rest, hitems⟩, hbefore, hfails, _⟩
    simp only [hcall, Attempt.each_singleton, Attempt.ofStep_eq_fault_iff] at hfails
    exact ⟨done, a, rest, hitems, (hcall d done).symm.trans hbefore, hfails.2⟩

end Items

theorem modify_order (d : Draft) (orders : List Value) :
    d.modify (.order orders) = Attempt.each addOrder d orders :=
  rfl

theorem modify_constrainAll (d : Draft) (entries : List (Value × Value)) :
    d.modify (.constrainAll (.map entries)) = Attempt.each addCondition d entries :=
  rfl

/-! ## What a call leaves -/

/-- A mapping of conditions adds constraints to the filter of its query. -/
theorem addConditions_spec {d s : Draft} {done : List (Value × Value)}
    (hown : d.query.filter < d.filters.cells.length)
    (h : d.modify (.constrainAll (.map done)) = ⟨s, none⟩) :
    ∃ cs, done.mapM Condition.constraint = .ok cs ∧ s.query = d.query ∧
      s.filters.get d.query.filter =
        ⟨(d.filters.get d.query.filter).constraints ++ cs,
          (d.filters.get d.query.filter).groups⟩ ∧
      ∀ a ≠ d.query.filter, s.filters.get a = d.filters.get a := by
  obtain ⟨cs, hcs, rfl⟩ := exists_of_addConditions h
  refine ⟨cs, hcs, rfl, ?_, ?_⟩
  · exact FilterStore.get_modify_self hown _
  · intro a ha
    exact FilterStore.get_modify_of_ne ha _

/-- A call without items changes nothing when it fails. -/
theorem eq_of_modify_fault {d s : Draft} {m : Modifier} {e : Error}
    (horder : ∀ orders, m ≠ .order orders)
    (hconditions : ∀ entries, m ≠ .constrainAll (.map entries))
    (h : d.modify m = ⟨s, some e⟩) : s = d := by
  cases m with
  | constrain field operator value => exact (Attempt.ofStep_eq_fault_iff.mp h).1
  | choose alternatives => exact (Attempt.ofStep_eq_fault_iff.mp h).1
  | constrainAll conditions =>
    cases conditions with
    | map entries => exact absurd rfl (hconditions entries)
    | _ =>
      cases h
      rfl
  | order orders => exact absurd rfl (horder orders)
  | skip count => cases h
  | limit count => cases h
  | keys names => cases h

/-- A call that fails leaves a query in order, whatever was built before. A call with orderings,
    or with a mapping of conditions, fails exactly when it stops at an item; then the items before
    it have been added and all else is as it was, so the query compiles as it does after the call
    with these items alone. Any other call that fails has changed nothing, and fields can always
    be kept. -/
theorem failing_call_stops (steps : List Workspace.Step) {i : Nat} {q : Query}
    (hq : (Workspace.empty.afterAll steps).queries[i]? = some q) :
    let d : Draft := ⟨(Workspace.empty.afterAll steps).filters, q⟩
    (∀ orders s e, d.modify (.order orders) = ⟨s, some e⟩ ↔
      ∃ done a, StopsAt .order d orders done a s e) ∧
    (∀ entries s e, d.modify (.constrainAll (.map entries)) = ⟨s, some e⟩ ↔
      ∃ done a, StopsAt (fun items => .constrainAll (.map items)) d entries done a s e) ∧
    (∀ done s, d.modify (.order done) = ⟨s, none⟩ →
      ∃ os, Order.ofValues done = .ok os ∧ s = { d with query.orders := q.orders ++ os }) ∧
    (∀ done s, d.modify (.constrainAll (.map done)) = ⟨s, none⟩ →
      ∃ cs, done.mapM Condition.constraint = .ok cs ∧ s.query = q ∧
        s.filters.get q.filter =
          ⟨(d.filters.get q.filter).constraints ++ cs, (d.filters.get q.filter).groups⟩ ∧
        ∀ a ≠ q.filter, s.filters.get a = d.filters.get a) ∧
    (∀ m s e, (∀ orders, m ≠ .order orders) → (∀ entries, m ≠ .constrainAll (.map entries)) →
      d.modify m = ⟨s, some e⟩ → s = d) ∧
    ∀ names, (d.modify (.keys names)).fault? = none := by
  intro d
  have hsound := Workspace.isSound_afterAll Workspace.isSound_empty steps
  have hown : d.query.filter < d.filters.cells.length :=
    hsound.stored q (List.mem_of_getElem? hq)
  refine ⟨?_, ?_, ?_, ?_, ?_, ?_⟩
  · intro orders s e
    exact modify_eq_fault_iff modify_order
  · intro entries s e
    exact modify_eq_fault_iff modify_constrainAll
  · intro done s h
    exact exists_of_addOrders h
  · intro done s h
    exact addConditions_spec hown h
  · intro m s e horder hconditions h
    exact eq_of_modify_fault horder hconditions h
  · intro names
    rfl

/-- A sign names no field, and neither do blanks. What stands before them has been added. -/
theorem failing_call_stops_song :
    let steps : List Workspace.Step := [.newQuery (.text "Song"),
      .modify 0 (.constrain (.text "genre") (.text "eq") (.text "rock"))]
    let d : Draft := ⟨(Workspace.empty.afterAll steps).filters,
      { className := .text "Song", filter := 0 }⟩
    let orders : List Value := [.text "-plays", .text "+", .text "title"]
    let entries : List (Value × Value) :=
      [(.text "plays__gt", .int 3), (.text "  ", .int 1), (.text "year", .int 1990)]
    (Workspace.empty.afterAll steps).queries[0]? = some d.query ∧
      (∃ done a s e, d.modify (.order orders) = ⟨s, some e⟩ ∧
        StopsAt .order d orders done a s e ∧ s.query.orders = [⟨"plays", .descending⟩]) ∧
      ∃ done a s e, d.modify (.constrainAll (.map entries)) = ⟨s, some e⟩ ∧
        StopsAt (fun items => .constrainAll (.map items)) d entries done a s e ∧
        s.filters.cells = [⟨[⟨"genre", .equal, .text "rock"⟩, ⟨"plays", .greater, .int 3⟩], []⟩] := by
  intro steps d orders entries
  have hq : (Workspace.empty.afterAll steps).queries[0]? = some d.query := rfl
  obtain ⟨horder, hconditions, _⟩ := failing_call_stops steps hq
  refine ⟨hq, ?_, ?_⟩
  · obtain ⟨done, a, hstops⟩ := (horder orders _ _).mp rfl
    exact ⟨done, a, _, _, rfl, hstops, rfl⟩
  · obtain ⟨done, a, hstops⟩ := (hconditions entries _ _).mp rfl
    exact ⟨done, a, _, _, rfl, hstops, rfl⟩

end Draft

end DocQuery
