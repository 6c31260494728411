-- SUMMARY: What a row of modifiers makes of a query, and that modifiers of different kinds can be attached in any order.
import DocQuery.Proofs.Pipeline
import DocQuery.Query.Modifier

/-!
# Rows of modifiers

Each modifier adds to one part of a query or sets it: its constraints, its groups of
alternatives, its orderings, its fields, the rows to skip or the limit. So after a row of
modifiers each part depends only on the modifiers for that part, and modifiers for different
parts can be attached in any order.

The groups are the delicate part. A group is made of the filters that are offered and of
copies of the filters of queries, and a copy depends on the store that it is made in. But
nothing refers to the filter of a new query, so as long as it is not offered to itself, its
own constraints matter to none of them.
-/

namespace DocQuery

/-! ## What one modifier does -/

namespace Condition

/-- The constraint of an entry of a mapping of conditions. -/
def constraint (entry : Value × Value) : Except Error Constraint :=
  match entry.1.points? with
  | some key =>
    let (field, operator) := split key
    Constraint.ofValues (.ofPoints field) (.text operator.name) entry.2
  | none => .error .mistyped

end Condition

namespace FilterStore

/-- Adds constraints to a filter. -/
def addConstraints (s : FilterStore) (id : FilterId) (cs : List Constraint) : FilterStore :=
  s.modify id fun cell => { cell with constraints := cell.constraints ++ cs }

@[simp] theorem addConstraints_nil (s : FilterStore) (id : FilterId) :
    s.addConstraints id [] = s := by
  have hsame : (fun cell : FilterCell => { cell with constraints := cell.constraints ++ [] }) =
      fun cell => cell := by
    funext cell
    rw [List.append_nil]
  rw [addConstraints, hsame]
  exact congrArg FilterStore.mk (List.modify_id id s.cells)

theorem addConstraints_append (s : FilterStore) (id : FilterId) (cs ds : List Constraint) :
    s.addConstraints id (cs ++ ds) = (s.addConstraints id cs).addConstraints id ds := by
  rw [addConstraints, addConstraints, addConstraints, modify_modify]
  simp [Function.comp_def]

end FilterStore

namespace Modifier

/-- The constraints that it adds. -/
def constraints : Modifier → List Constraint
  | .constrain field operator value => (Constraint.ofValues field operator value).toOption.toList
  | .constrainAll (.map entries) => (entries.mapM Condition.constraint).toOption.getD []
  | _ => []

/-- The orderings that it adds. -/
def orders : Modifier → List Order
  | .order vs => (Order.ofValues vs).toOption.getD []
  | _ => []

/-- The fields that it adds. -/
def names : Modifier → List Value
  | .keys names => names
  | _ => []

/-- The number of rows to skip that it sets. -/
def skip? : Modifier → Option Value
  | .skip count => some count
  | _ => none

/-- The limit that it sets. -/
def limit? : Modifier → Option Value
  | .limit count => some count
  | _ => none

/-- The store after its alternatives have been added to a filter. -/
def chooseIn (id : FilterId) (s : FilterStore) : Modifier → FilterStore
  | .choose alternatives =>
    match Draft.alternativeIds s alternatives with
    | .ok (ids, t) => t.addGroup id ids
    | .error _ => s
  | _ => s

/-- What it leaves of a query when it succeeds. -/
def applyTo (d : Draft) (m : Modifier) : Draft where
  filters := (m.chooseIn d.query.filter d.filters).addConstraints d.query.filter m.constraints
  query := { d.query with
    orders := d.query.orders ++ m.orders
    skip := m.skip?.getD d.query.skip
    limit := m.limit?.getD d.query.limit
    keys := d.query.keys ++ m.names }

end Modifier

namespace Attempt

theorem eq_ok_of_ofStep {σ : Type} {s t : σ} {x : Except Error σ} (h : ofStep s x = ⟨t, none⟩) :
    x = .ok t := by
  cases x with
  | error e => cases h
  | ok s' =>
    cases h
    rfl

/-- Steps that each add what they read add, one after the other, all that they read. -/
theorem exists_of_each {σ α β : Type} {step : σ → α → Except Error σ} {read : α → Except Error β}
    (put : σ → List β → σ)
    (hstep : ∀ s a t, step s a = .ok t → ∃ b, read a = .ok b ∧ t = put s [b])
    (hnil : ∀ s, put s [] = s) (happend : ∀ s bs cs, put (put s bs) cs = put s (bs ++ cs))
    {s t : σ} {as : List α} (h : each step s as = ⟨t, none⟩) :
    ∃ bs, as.mapM read = .ok bs ∧ t = put s bs := by
  induction as generalizing s with
  | nil =>
    cases h
    exact ⟨[], rfl, (hnil _).symm⟩
  | cons a as ih =>
    unfold each at h
    split at h
    · rename_i s' hs'
      obtain ⟨b, hb, rfl⟩ := hstep s a s' hs'
      obtain ⟨bs, hbs, rfl⟩ := ih h
      refine ⟨b :: bs, ?_, happend s [b] bs⟩
      rw [List.mapM_cons, hb, hbs]
      rfl
    · cases h

end Attempt

namespace Draft

theorem exists_of_constrain {d e : Draft} {field operator value : Value}
    (h : d.constrain field operator value = .ok e) :
    ∃ c, Constraint.ofValues field operator value = .ok c ∧
      e = { d with filters := d.filters.addConstraints d.query.filter [c] } := by
  obtain ⟨t, ht, rfl⟩ := exists_of_map_eq_ok h
  obtain ⟨c, hc, rfl⟩ := exists_of_map_eq_ok ht
  exact ⟨c, hc, rfl⟩

theorem exists_of_addCondition {d e : Draft} {entry : Value × Value}
    (h : d.addCondition entry = .ok e) : ∃ c, Condition.constraint entry = .ok c ∧
      e = { d with filters := d.filters.addConstraints d.query.filter [c] } := by
  rw [addCondition] at h
  rw [Condition.constraint]
  cases hkey : entry.1.points? with
  | none =>
    rw [hkey] at h
    cases h
  | some key =>
    rw [hkey] at h
    exact exists_of_constrain h

theorem exists_of_addOrders {d e : Draft} {vs : List Value}
    (h : Attempt.each addOrder d vs = ⟨e, none⟩) : ∃ os, Order.ofValues vs = .ok os ∧
      e = { d with query.orders := d.query.orders ++ os } := by
  refine Attempt.exists_of_each (fun d os => { d with query.orders := d.query.orders ++ os })
    (fun d v e he => ?_) (fun d => ?_) (fun d os os' => ?_) h
  · obtain ⟨o, ho, rfl⟩ := exists_of_map_eq_ok he
    exact ⟨o, ho, rfl⟩
  · simp
  · simp

theorem exists_of_addConditions {d e : Draft} {entries : List (Value × Value)}
    (h : Attempt.each addCondition d entries = ⟨e, none⟩) :
    ∃ cs, entries.mapM Condition.constraint = .ok cs ∧
      e = { d with filters := d.filters.addConstraints d.query.filter cs } := by
  refine Attempt.exists_of_each
    (fun d cs => { d with filters := d.filters.addConstraints d.query.filter cs })
    (fun d entry e he => exists_of_addCondition he) (fun d => ?_) (fun d cs cs' => ?_) h
  · simp
  · simp [FilterStore.addConstraints_append]

/-- A modifier that succeeds does what it is for, and nothing else. -/
theorem eq_applyTo {d e : Draft} {m : Modifier} (h : d.modify m = ⟨e, none⟩) :
    e = m.applyTo d := by
  cases m with
  | constrain field operator value =>
    obtain ⟨c, hc, rfl⟩ := exists_of_constrain (Attempt.eq_ok_of_ofStep h)
    simp [Modifier.applyTo, Modifier.chooseIn, Modifier.constraints, Modifier.orders,
      Modifier.skip?, Modifier.limit?, Modifier.names, hc, Except.toOption]
  | constrainAll conditions =>
    cases conditions with
    | map entries =>
      obtain ⟨cs, hcs, rfl⟩ := exists_of_addConditions h
      simp [Modifier.applyTo, Modifier.chooseIn, Modifier.constraints, Modifier.orders,
        Modifier.skip?, Modifier.limit?, Modifier.names, hcs, Except.toOption]
    | _ => cases h
  | choose alternatives =>
    obtain ⟨⟨ids, t⟩, hids, he⟩ := exists_of_bind_eq_ok (Attempt.eq_ok_of_ofStep h)
    cases he
    simp [Modifier.applyTo, Modifier.chooseIn, Modifier.constraints, Modifier.orders,
      Modifier.skip?, Modifier.limit?, Modifier.names, hids]
  | order vs =>
    obtain ⟨os, hos, rfl⟩ := exists_of_addOrders h
    simp [Modifier.applyTo, Modifier.chooseIn, Modifier.constraints, Modifier.orders,
      Modifier.skip?, Modifier.limit?, Modifier.names, hos, Except.toOption]
  | _ =>
    cases h
    simp [Modifier.applyTo, Modifier.chooseIn, Modifier.constraints, Modifier.orders,
      Modifier.skip?, Modifier.limit?, Modifier.names]

end Draft

/-! ## Choices beside constraints -/

/-- The alternative is not the filter at a place. -/
def Alternative.IsOther (own : FilterId) : Alternative → Prop
  | .filter id => id ≠ own
  | .query q => q.filter ≠ own
  | .other => True

/-- The alternatives that it offers are not the filter at a place. -/
def Modifier.OffersOthers (own : FilterId) : Modifier → Prop
  | .choose alternatives => ∀ a ∈ alternatives, a.IsOther own
  | _ => True

namespace FilterStore

theorem isUnshared_modify {s : FilterStore} {own : Nat} (h : s.IsUnshared own) {id : FilterId}
    {change : FilterCell → FilterCell}
    (hchange : ∀ c ∈ s.cells, ∀ g ∈ (change c).groups, g ∈ c.groups ∨ own ∉ g) :
    (s.modify id change).IsUnshared own := by
  intro c hc g hg hmem
  rcases mem_modify hc with hc | ⟨c', hc', rfl⟩
  · exact h c hc g hg hmem
  · rcases hchange c' hc' g hg with hg | hout
    · exact h c' hc' g hg hmem
    · exact hout hmem

theorem IsOwn.addConstraints {s : FilterStore} {own : FilterId} (h : s.IsOwn own)
    (cs : List Constraint) : (s.addConstraints own cs).IsOwn own := by
  refine ⟨?_, isUnshared_modify h.unshared fun c _ g hg => .inl hg⟩
  rw [FilterStore.addConstraints, length_modify]
  exact h.lt

theorem IsOwn.addGroup {s : FilterStore} {own : FilterId} (h : s.IsOwn own) {ids : List FilterId}
    (hids : own ∉ ids) : (s.addGroup own ids).IsOwn own := by
  unfold FilterStore.addGroup
  split
  · exact h
  · rename_i hgroup
    refine ⟨by rw [length_modify]; exact h.lt, isUnshared_modify h.unshared fun c _ g hg => ?_⟩
    rcases List.mem_append.mp hg with hg | hg
    · exact .inl hg
    · obtain rfl := List.mem_singleton.mp hg
      exact .inr fun hmem => hids (List.mem_of_mem_filter hmem)

/-- What a filter is offered does not depend on its own constraints. -/
theorem addGroup_addConstraints (s : FilterStore) {own : FilterId} {ids : List FilterId}
    (hids : own ∉ ids) (cs : List Constraint) :
    (s.addConstraints own cs).addGroup own ids = (s.addGroup own ids).addConstraints own cs := by
  have hgroup : ids.filter (fun a => !((s.addConstraints own cs).get a).isEmpty) =
      ids.filter fun a => !(s.get a).isEmpty := by
    refine List.filter_congr fun a ha => ?_
    rw [FilterStore.addConstraints, get_modify_of_ne (ne_of_mem_of_not_mem ha hids)]
  unfold FilterStore.addGroup
  rw [hgroup]
  split
  · rfl
  · simp only [FilterStore.addConstraints, modify_modify]
    rfl

end FilterStore

namespace Draft

open FilterStore

theorem alternativeIds_cons (s : FilterStore) (a : Alternative) (rest : List Alternative) :
    alternativeIds s (a :: rest) = alternativeId s a >>= fun (id, t) =>
      alternativeIds t rest >>= fun (ids, u) => .ok (id :: ids, u) := rfl

/-- Offered filters are kept and copies are new, so the store grows by cells that refer to
    nothing old, and the filter that they are offered to is none of them. -/
theorem grows_of_alternativeId {s t : FilterStore} {own id : FilterId} (hown : s.IsOwn own)
    {a : Alternative} (hother : a.IsOther own) (h : alternativeId s a = .ok (id, t)) :
    Grows s t ∧ own ≠ id := by
  cases a with
  | filter id =>
    cases h
    exact ⟨.refl s, hother.symm⟩
  | query q =>
    obtain ⟨hgrows, hle⟩ := grows_of_copy h
    exact ⟨hgrows, Nat.ne_of_lt (Nat.lt_of_lt_of_le hown.lt hle)⟩
  | other => cases h

theorem grows_of_alternativeIds {s t : FilterStore} {own : FilterId} (hown : s.IsOwn own)
    {as : List Alternative} (hothers : ∀ a ∈ as, a.IsOther own) {ids : List FilterId}
    (h : alternativeIds s as = .ok (ids, t)) : Grows s t ∧ own ∉ ids := by
  induction as generalizing s ids with
  | nil =>
    cases h
    exact ⟨.refl _, List.not_mem_nil⟩
  | cons a as ih =>
    obtain ⟨hother, hothers⟩ := List.forall_mem_cons.mp hothers
    rw [alternativeIds_cons] at h
    obtain ⟨⟨id, s'⟩, hid, h⟩ := exists_of_bind_eq_ok h
    obtain ⟨⟨ids, t'⟩, hids, h⟩ := exists_of_bind_eq_ok h
    cases h
    obtain ⟨hgrows, hne⟩ := grows_of_alternativeId hown hother hid
    obtain ⟨hgrows', hnotMem⟩ := ih (hown.grows hgrows) hothers hids
    refine ⟨hgrows.trans hgrows', fun hmem => ?_⟩
    rcases List.mem_cons.mp hmem with heq | hmem
    · exact hne heq
    · exact hnotMem hmem

theorem alternativeId_addConstraints {s : FilterStore} {own : FilterId} (hown : s.IsOwn own)
    {a : Alternative} (hother : a.IsOther own) (cs : List Constraint) :
    alternativeId (s.addConstraints own cs) a =
      (alternativeId s a).map fun (id, t) => (id, t.addConstraints own cs) := by
  cases a with
  | filter id => rfl
  | query q => exact copy_modify hown.lt hown.unshared _ hother
  | other => rfl

theorem alternativeIds_addConstraints {s : FilterStore} {own : FilterId} (hown : s.IsOwn own)
    {as : List Alternative} (hothers : ∀ a ∈ as, a.IsOther own) (cs : List Constraint) :
    alternativeIds (s.addConstraints own cs) as =
      (alternativeIds s as).map fun (ids, t) => (ids, t.addConstraints own cs) := by
  induction as generalizing s with
  | nil => rfl
  | cons a as ih =>
    obtain ⟨hother, hothers⟩ := List.forall_mem_cons.mp hothers
    rw [alternativeIds_cons, alternativeIds_cons, alternativeId_addConstraints hown hother]
    cases hid : alternativeId s a with
    | error e => rfl
    | ok result =>
      obtain ⟨id, t⟩ := result
      have hgrown := hown.grows (grows_of_alternativeId hown hother hid).1
      show (alternativeIds (t.addConstraints own cs) as >>= _) = _
      rw [ih hgrown hothers]
      cases hids : alternativeIds t as with
      | error e => simp only [hids, bind, Except.bind, Except.map]
      | ok result => simp only [hids, bind, Except.bind, Except.map]

end Draft

namespace Modifier

open FilterStore

theorem isOwn_chooseIn {s : FilterStore} {own : FilterId} (hown : s.IsOwn own) {m : Modifier}
    (hm : m.OffersOthers own) : (m.chooseIn own s).IsOwn own := by
  cases m with
  | choose alternatives =>
    unfold chooseIn
    dsimp only
    cases hids : Draft.alternativeIds s alternatives with
    | error e => exact hown
    | ok result =>
      obtain ⟨hgrows, hnotMem⟩ := Draft.grows_of_alternativeIds hown hm hids
      exact (hown.grows hgrows).addGroup hnotMem
  | _ => exact hown

/-- A group of alternatives and constraints can be added in either order. -/
theorem chooseIn_addConstraints {s : FilterStore} {own : FilterId} (hown : s.IsOwn own)
    {m : Modifier} (hm : m.OffersOthers own) (cs : List Constraint) :
    m.chooseIn own (s.addConstraints own cs) = (m.chooseIn own s).addConstraints own cs := by
  cases m with
  | choose alternatives =>
    simp only [chooseIn, Draft.alternativeIds_addConstraints hown hm]
    cases hids : Draft.alternativeIds s alternatives with
    | error e => rfl
    | ok result =>
      obtain ⟨_, hnotMem⟩ := Draft.grows_of_alternativeIds hown hm hids
      exact addGroup_addConstraints _ hnotMem cs
  | _ => rfl

theorem foldl_chooseIn_addConstraints {s : FilterStore} {own : FilterId} (hown : s.IsOwn own)
    {ms : List Modifier} (hms : ∀ m ∈ ms, m.OffersOthers own) (cs : List Constraint) :
    ms.foldl (chooseIn own) (s.addConstraints own cs) =
      (ms.foldl (chooseIn own) s).addConstraints own cs := by
  induction ms generalizing s with
  | nil => rfl
  | cons m ms ih =>
    obtain ⟨hm, hms⟩ := List.forall_mem_cons.mp hms
    rw [List.foldl_cons, List.foldl_cons, chooseIn_addConstraints hown hm,
      ih (isOwn_chooseIn hown hm) hms]

/-- After a row of modifiers each part of a query has what the modifiers for it added, or what
    the last one set. -/
theorem foldl_applyTo {d : Draft} (hown : d.filters.IsOwn d.query.filter) {ms : List Modifier}
    (hms : ∀ m ∈ ms, m.OffersOthers d.query.filter) : ms.foldl applyTo d =
      { filters := (ms.foldl (chooseIn d.query.filter) d.filters).addConstraints d.query.filter
          (ms.flatMap constraints)
        query := { d.query with
          orders := d.query.orders ++ ms.flatMap orders
          skip := (ms.filterMap skip?).getLast?.getD d.query.skip
          limit := (ms.filterMap limit?).getLast?.getD d.query.limit
          keys := d.query.keys ++ ms.flatMap names } } := by
  have hlast : ∀ (set? : Modifier → Option Value) (m : Modifier) (ms : List Modifier) (v : Value),
      ((m :: ms).filterMap set?).getLast?.getD v =
        (ms.filterMap set?).getLast?.getD ((set? m).getD v) := by
    intro set? m ms v
    rw [List.filterMap_cons]
    cases set? m with
    | none => rfl
    | some w => rw [List.getLast?_cons, Option.getD_some, Option.getD_some]
  induction ms generalizing d with
  | nil => simp
  | cons m ms ih =>
    obtain ⟨hm, hms⟩ := List.forall_mem_cons.mp hms
    have hchosen := isOwn_chooseIn hown hm
    rw [List.foldl_cons, ih (d := m.applyTo d) (hchosen.addConstraints _) hms]
    simp only [applyTo, List.flatMap_cons, hlast, List.append_assoc, List.foldl_cons,
      addConstraints_append, foldl_chooseIn_addConstraints hchosen hms]

end Modifier

end DocQuery
