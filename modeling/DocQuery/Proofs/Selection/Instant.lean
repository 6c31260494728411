-- SUMMARY: Which instants the conditions on dates select, to the microsecond.
import DocQuery.Proofs.Calendar.Number
import DocQuery.Proofs.Encoding.Settled
import DocQuery.Proofs.Filter.Store
import DocQuery.Proofs.Selection.Stored

/-!
# Selection of instants

The store keeps instants of whole milliseconds. A bound may fall between two of them. It is cut
to its millisecond on its way to the store, so it moves back to the stored instant before it.
Nothing stored lies in between, so what comes after the bound, and what comes no later, stays
the same. What comes before the bound, and what comes no earlier, is told from the start of
its millisecond.
-/

namespace DocQuery

open DateTime (utcInstant)

/-- The start of the millisecond of an instant. -/
def DateTime.millisecond (instant : Int) : Int :=
  instant / 1000 * 1000

namespace Selection

open Encoding (isLogical isMembership matchBody clause)

theorem IsStamp.reading_mod {t : DateTime} (ht : IsStamp t) : t.reading % 1000 = 0 := by
  have hwhole := ht.whole
  have hsecond : DateTime.perSecond = 1000 * 1000 := rfl
  simp only [DateTime.reading, DateTime.perDay, hsecond]
  omega

/-! ## Conditions on dates -/

/-- What an operator asks of a stored instant, for a bound. -/
def Meets (op : Operator) (t bound : Int) : Prop :=
  match op with
  | .before => t < DateTime.millisecond bound
  | .after => bound < t
  | .onOrBefore => t ≤ bound
  | .onOrAfter => DateTime.millisecond bound ≤ t
  | _ => False

/-- An operator with its value compares dates with bounds, each under an operator of its own. -/
inductive IsDateCondition : Operator → Value → List (Operator × DateTime) → Prop
  | single {op : Operator} {name : String} (h : Constraint.dateComparison? op = some name)
    (bound : DateTime) : IsDateCondition op (.datetime bound) [(op, bound)]
  | interval {v : Value} {low high : DateTime}
    (h : Constraint.pair? v = some (.datetime low, .datetime high)) :
    IsDateCondition .betweenDates v [(.onOrAfter, low), (.onOrBefore, high)]

/-- The store operators that compare dates. -/
def dateOperators : List String := ["$lt", "$gt", "$lte", "$gte"]

theorem plain_of_mem_dateOperators : ∀ name ∈ dateOperators, name ≠ "$eq" ∧ name ≠ "__type" ∧
    isMembership name = false ∧ name.toList.head? = some '$' := by
  decide

/-- A store operator with the UTC reading of a bound, for an operator with a bound. -/
structure IsBound (p : Operator × DateTime) (q : String × DateTime) : Prop where
  name : Constraint.dateComparison? p.1 = some q.1
  utc : p.2.toUtc? = some q.2
  valid : q.2.isValid = true
  year : 1000 ≤ q.2.date.year

theorem IsBound.mem {p : Operator × DateTime} {q : String × DateTime} (h : IsBound p q) :
    q.1 ∈ dateOperators := by
  have hname := h.name
  obtain ⟨op, bound⟩ := p
  obtain ⟨name, u⟩ := q
  cases op <;> cases hname <;> simp [dateOperators]

/-- A bound has the tagged object of its UTC reading as its wire form. -/
theorem dateBound_datetime {t u : DateTime} (h : t.toUtc? = some u) :
    Constraint.dateBound (.datetime t) = .ok (Wire.taggedDate (.text u.wireText)) := by
  have hread : DateTime.ofValue (.datetime t) = .ok u := by
    rw [DateTime.ofValue, DateTime.toUtc, h]
  rw [Constraint.dateBound, hread]
  exact Wire.date_of_offset (DateTime.offset_of_toUtc? h)

/-- The operator document of some bounds. -/
def boundDoc (bounds : List (String × DateTime)) : OperatorDoc :=
  bounds.map fun (name, u) => (name, Wire.taggedDate (.text u.wireText))

/-- One operator document stands in a body under its field. -/
theorem conjunction_boundDoc {bounds : List (String × DateTime)}
    (hnodup : (Assoc.keys bounds).Nodup) (hmem : ∀ q ∈ bounds, q.1 ∈ dateOperators)
    (field : String) : Filter.conjunction [(field, boundDoc bounds)] =
      [(field, .object (boundDoc bounds))] := by
  have hkeys : Assoc.keys (boundDoc bounds) = Assoc.keys bounds := by
    rw [boundDoc, Assoc.keys, List.map_map]
    rfl
  have hdoc : Assoc.merge [] (boundDoc bounds) = boundDoc bounds :=
    Assoc.ofPairs_of_nodup (hkeys ▸ hnodup)
  have hoperand : Filter.operand (boundDoc bounds) = .object (boundDoc bounds) := by
    unfold Filter.operand
    split
    · rename_i v heq
      have hequal : "$eq" ∈ Assoc.keys bounds := by
        rw [← hkeys, heq]
        exact List.mem_singleton_self _
      obtain ⟨q, hq, hname⟩ := List.mem_map.mp hequal
      exact absurd hname (plain_of_mem_dateOperators q.1 (hmem q hq)).1
    · rfl
  show [(field, Filter.operand (Assoc.merge [] (boundDoc bounds)))] = _
  rw [hdoc, hoperand]

/-! ## In the store -/

/-- The readings of some bounds, as the store compares with them. -/
def storedDoc (bounds : List (String × DateTime)) : OperatorDoc :=
  bounds.map fun (name, u) => (name, .datetime u.cut)

theorem isTagged_boundDoc {bounds : List (String × DateTime)}
    (hmem : ∀ q ∈ bounds, q.1 ∈ dateOperators) (type : String) :
    (Value.object (boundDoc bounds)).isTagged type = false := by
  refine Value.not_isTagged_of_keys ?_ type
  rw [List.forall_mem_map, boundDoc, List.forall_mem_map]
  exact fun q hq => (plain_of_mem_dateOperators q.1 (hmem q hq)).2.1

theorem value_boundDoc {bounds : List (String × DateTime)}
    (hnodup : (Assoc.keys bounds).Nodup) (hmem : ∀ q ∈ bounds, q.1 ∈ dateOperators)
    (hreal : ∀ q ∈ bounds, q.2.isValid = true ∧ 1000 ≤ q.2.date.year) :
    Encoding.value .storage (.object (boundDoc bounds)) = .ok (.object (storedDoc bounds)) := by
  have hstored : (Assoc.keys (storedDoc bounds)).Nodup := by
    rwa [storedDoc, Assoc.keys, List.map_map]
  have hentries : List.Forall₂ (fun f g => f.1 = g.1 ∧ Encoding.value .storage f.2 = .ok g.2)
      (boundDoc bounds) (storedDoc bounds) := by
    rw [boundDoc, storedDoc, List.forall₂_map_left_iff, List.forall₂_map_right_iff]
    refine List.forall₂_same.mpr fun q hq => ⟨rfl, ?_⟩
    obtain ⟨hvalid, hyear⟩ := hreal q hq
    exact Wire.encode_taggedDate hvalid hyear
  rw [Value.object, Encoding.value_map (isTagged_boundDoc hmem "Pointer")
    (isTagged_boundDoc hmem "Date"),
    Encoding.mapM_object (fun _ => Encoding.value .storage) hentries]
  exact congrArg (Except.ok ∘ Value.object) (Assoc.ofPairs_of_nodup hstored)

/-- Bounds are encoded under the column of the field, each cut to its millisecond. -/
theorem clause_boundDoc {bounds : List (String × DateTime)}
    (hnodup : (Assoc.keys bounds).Nodup) (hmem : ∀ q ∈ bounds, q.1 ∈ dateOperators)
    (hreal : ∀ q ∈ bounds, q.2.isValid = true ∧ 1000 ≤ q.2.date.year) (key : String) :
    clause .storage key (.object (boundDoc bounds)) =
      .ok (FieldName.toStorage key, .object (storedDoc bounds)) := by
  have hvalue := value_boundDoc hnodup hmem hreal
  rw [clause]
  split
  · rename_i hlead
    rw [FieldName.toStorage_of_not_mem (FieldName.operator_not_mem_systemNames hlead), hvalue]
    rfl
  · have hholds : Encoding.holdsPointer (.object (boundDoc bounds)) = false := by
      refine Encoding.holdsPointer_map (isTagged_boundDoc hmem "Pointer") ?_
      rw [List.forall_mem_map, boundDoc, List.forall_mem_map]
      exact fun q hq => rfl
    have hoperand : Encoding.operand .storage (.object (boundDoc bounds)) =
        .ok (.object (storedDoc bounds)) := by
      rw [← hvalue]
      refine Encoding.operand_eq_value ?_
      rw [List.forall_mem_map, boundDoc, List.forall_mem_map]
      exact fun q hq => (plain_of_mem_dateOperators q.1 (hmem q hq)).2.2.1
    rw [hoperand, Encoding.clauseName, hholds]
    rfl

/-! ## Stamps -/

theorem below_readings {t u : DateTime} (ht : t.offset = some 0) (hu : u.offset = some 0) :
    (below true (.datetime t) (.datetime u) = true ↔ t.reading < u.reading) ∧
      (below false (.datetime t) (.datetime u) = true ↔ t.reading ≤ u.reading) := by
  have hless : (Value.datetime t).less? (.datetime u) = some (decide (t.reading < u.reading)) := by
    show t.before? u = _
    simp [DateTime.before?, DateTime.instant?, ht, hu]
  have hequal : (Value.datetime t == .datetime u) = decide (t.reading = u.reading) := by
    show t.same u = _
    simp only [DateTime.same, DateTime.instant?, ht, hu, Option.map_some]
    rw [Bool.eq_iff_iff, beq_iff_eq, decide_eq_true_eq]
    omega
  rw [below, below, hless, hequal]
  by_cases hlt : t.reading < u.reading
  · simp [hlt, Nat.le_of_lt hlt]
  · have hle : t.reading = u.reading ↔ t.reading ≤ u.reading := by omega
    simp [hlt, hle]

/-- A stamp meets a stored bound when it meets the bound. -/
theorem operatorHolds_iff {p : Operator × DateTime} {q : String × DateTime} (h : IsBound p q)
    {t : DateTime} (ht : IsStamp t) (search : Value → Bool → Value → Bool)
    (options : Option Value) :
    operatorHolds search options q.1 (.datetime q.2.cut) (some (.datetime t)) = true ↔
      Meets p.1 t.utcInstant p.2.utcInstant := by
  obtain ⟨op, bound⟩ := p
  obtain ⟨name, u⟩ := q
  have hbound : (u.reading : Int) = bound.utcInstant := DateTime.reading_of_toUtc? h.utc
  have hstamp : (t.reading : Int) = t.utcInstant := by
    rw [utcInstant, ht.utc]
    exact (Int.sub_zero _).symm
  have hwhole := ht.reading_mod
  have hcut := DateTime.reading_cut u
  obtain ⟨hbelow, hbelow'⟩ := below_readings (u := u.cut) ht.utc rfl
  obtain ⟨habove, habove'⟩ := below_readings (t := u.cut) rfl ht.utc
  rw [← hbound, ← hstamp]
  have hname := h.name
  cases op <;> cases hname
  · refine hbelow.trans ?_
    show _ ↔ _ < DateTime.millisecond _
    rw [DateTime.millisecond]
    omega
  · refine habove.trans ?_
    show _ ↔ _ < _
    omega
  · refine hbelow'.trans ?_
    show _ ↔ _ ≤ _
    omega
  · refine habove'.trans ?_
    show _ ↔ DateTime.millisecond _ ≤ _
    rw [DateTime.millisecond]
    omega

/-! ## Bodies -/

namespace IsDateCondition

variable {op : Operator} {v : Value} {bounds : List (Operator × DateTime)}
  {stored : List (String × DateTime)}

theorem ne_nil (hcondition : IsDateCondition op v bounds) : bounds ≠ [] := by
  cases hcondition <;> exact List.cons_ne_nil _ _

theorem exists_name (hcondition : IsDateCondition op v bounds) :
    ∀ p ∈ bounds, ∃ name, Constraint.dateComparison? p.1 = some name := by
  cases hcondition with
  | single hname bound => exact List.forall_mem_singleton.mpr ⟨_, hname⟩
  | interval _ => exact List.forall_mem_cons.mpr ⟨⟨_, rfl⟩, List.forall_mem_singleton.mpr ⟨_, rfl⟩⟩

/-- The bounds stand under store operators that are all different. -/
theorem operatorDoc (hcondition : IsDateCondition op v bounds)
    (h : List.Forall₂ IsBound bounds stored) :
    Constraint.operatorDoc op v = .ok (boundDoc stored) ∧ (Assoc.keys stored).Nodup := by
  cases hcondition with
  | @single op name hname bound =>
    obtain ⟨⟨name', u⟩, rest, hq, hrest, rfl⟩ := List.forall₂_cons_left_iff.mp h
    obtain rfl := List.forall₂_nil_left_iff.mp hrest
    have hdoc : Constraint.operatorDoc op (.datetime bound) =
        (Constraint.dateBound (.datetime bound)).map fun w => [(name', w)] := by
      have hname' := hq.name
      cases op <;> cases hname' <;> rfl
    rw [hdoc, dateBound_datetime hq.utc]
    exact ⟨rfl, List.nodup_singleton _⟩
  | @interval v low high hpair =>
    obtain ⟨⟨lower, t⟩, rest, hlow, hrest, rfl⟩ := List.forall₂_cons_left_iff.mp h
    obtain ⟨⟨upper, u⟩, rest', hhigh, hnil, rfl⟩ := List.forall₂_cons_left_iff.mp hrest
    obtain rfl := List.forall₂_nil_left_iff.mp hnil
    cases hlow.name
    cases hhigh.name
    simp only [Constraint.operatorDoc, Constraint.comparison?, Constraint.membership?,
      Constraint.dateComparison?, hpair, dateBound_datetime hlow.utc, dateBound_datetime hhigh.utc]
    exact ⟨rfl, show ["$gte", "$lte"].Nodup by decide⟩

theorem compile (hcondition : IsDateCondition op v bounds)
    (h : List.Forall₂ IsBound bounds stored) {s : FilterStore} {id : FilterId} {field : String}
    (hcell : s.get id = ⟨[⟨field, op, v⟩], []⟩) :
    s.compile id = .ok [(FieldName.wire (.text field), .object (boundDoc stored))] := by
  obtain ⟨hdoc, hnodup⟩ := hcondition.operatorDoc h
  rw [← conjunction_boundDoc hnodup (forall_mem_of_forall₂ h fun _ _ hpq => hpq.mem)]
  refine FilterStore.compile_of_constraints hcell ?_
  rw [List.mapM_cons, Constraint.compile, hdoc]
  rfl

theorem encode (hcondition : IsDateCondition op v bounds)
    (h : List.Forall₂ IsBound bounds stored) {key : String} (hkey : isLogical key = false) :
    matchBody .storage (.object [(key, .object (boundDoc stored))]) =
      .ok (.object [(FieldName.toStorage key, .object (storedDoc stored))]) := by
  have hmem : ∀ q ∈ stored, q.1 ∈ dateOperators :=
    forall_mem_of_forall₂ h fun _ _ hpq => hpq.mem
  have hreal : ∀ q ∈ stored, q.2.isValid = true ∧ 1000 ≤ q.2.date.year :=
    forall_mem_of_forall₂ h fun _ _ hpq => ⟨hpq.valid, hpq.year⟩
  rw [Encoding.matchBody_single hkey,
    clause_boundDoc (hcondition.operatorDoc h).2 hmem hreal]
  rfl

theorem holds_iff (hcondition : IsDateCondition op v bounds)
    (h : List.Forall₂ IsBound bounds stored) (search : Value → Bool → Value → Bool)
    {t : DateTime} (ht : IsStamp t) :
    holds search (.object (storedDoc stored)) (some (.datetime t)) = true ↔
      ∀ p ∈ bounds, Meets p.1 t.utcInstant p.2.utcInstant := by
  have hne : storedDoc stored ≠ [] := by
    rw [storedDoc, Ne, List.map_eq_nil_iff, ← eq_nil_iff_of_forall₂ h]
    exact hcondition.ne_nil
  have hmem : ∀ q ∈ stored, q.1 ∈ dateOperators :=
    forall_mem_of_forall₂ h fun _ _ hpq => hpq.mem
  have hlead : ∀ o ∈ storedDoc stored, o.1.toList.head? = some '$' := by
    rw [storedDoc, List.forall_mem_map]
    exact fun q hq => (plain_of_mem_dateOperators q.1 (hmem q hq)).2.2.2
  rw [holds_operators search hne hlead, List.all_eq_true]
  generalize Assoc.find? "$options" (storedDoc stored) = options
  rw [storedDoc, List.forall_mem_map]
  exact (forall_mem_iff_of_forall₂ h fun p q hpq =>
    (operatorHolds_iff hpq ht search options).symm).symm

end IsDateCondition

/-- A condition on dates, as the store reads it, selects a stored instant exactly when the
    instant meets the condition. What comes before a bound, and what comes no earlier, is told
    from the start of the millisecond of the bound. -/
theorem dateCondition_selects_iff (search : Value → Bool → Value → Bool) {s : FilterStore}
    {id : FilterId} {field : String} {op : Operator} {v : Value}
    {bounds : List (Operator × DateTime)} (hcell : s.get id = ⟨[⟨field, op, v⟩], []⟩)
    (hfield : isLogical (FieldName.wire (.text field)) = false)
    (hcondition : IsDateCondition op v bounds)
    (hbounds : ∀ p ∈ bounds, p.2.isValid = true ∧
      ∃ u, p.2.toUtc? = some u ∧ 1000 ≤ u.date.year) :
    ∃ body operand, s.compile id = .ok body ∧ matchBody .storage (.object body) =
        .ok (.object [(FieldName.toStorage (FieldName.wire (.text field)), operand)]) ∧
      ∀ t : DateTime, IsStamp t → (holds search operand (some (.datetime t)) = true ↔
        ∀ p ∈ bounds, Meets p.1 t.utcInstant p.2.utcInstant) := by
  obtain ⟨stored, hstored⟩ : ∃ stored, List.Forall₂ IsBound bounds stored := by
    refine exists_forall₂ fun p hp => ?_
    obtain ⟨hvalid, u, hutc, hyear⟩ := hbounds p hp
    obtain ⟨name, hname⟩ := hcondition.exists_name p hp
    exact ⟨(name, u), hname, hutc, DateTime.isValid_of_toUtc? hvalid hutc, hyear⟩
  exact ⟨_, _, hcondition.compile hstored hcell, hcondition.encode hstored hfield,
    fun t ht => hcondition.holds_iff hstored search ht⟩

/-- An interval from a day that is a day earlier in UTC, with bounds between milliseconds. -/
theorem dateCondition_selects_iff_interval :
    let low : DateTime := ⟨⟨2024, 3, 1⟩, 1, 30, 0, 400, some 7200000000⟩
    let high : DateTime := ⟨⟨2024, 3, 1⟩, 0, 0, 0, 999, none⟩
    let s : FilterStore :=
      ⟨[⟨[⟨"released_at", .betweenDates, .tuple [.datetime low, .datetime high]⟩], []⟩]⟩
    (low.isValid = true ∧ ∃ u, low.toUtc? = some u ∧ 1000 ≤ u.date.year) ∧
      (high.isValid = true ∧ ∃ u, high.toUtc? = some u ∧ 1000 ≤ u.date.year) ∧
      ∃ body operand, s.compile 0 = .ok body ∧
        matchBody .storage (.object body) = .ok (.object [("releasedAt", operand)]) ∧
        ∀ t : DateTime, IsStamp t →
          (holds (fun _ _ _ => false) operand (some (.datetime t)) = true ↔
            DateTime.millisecond low.utcInstant ≤ t.utcInstant ∧
              t.utcInstant ≤ high.utcInstant) := by
  intro low high s
  have hlow : low.isValid = true ∧ ∃ u, low.toUtc? = some u ∧ 1000 ≤ u.date.year :=
    ⟨by decide, ⟨⟨2024, 2, 29⟩, 23, 30, 0, 400, some 0⟩, by decide, by decide⟩
  have hhigh : high.isValid = true ∧ ∃ u, high.toUtc? = some u ∧ 1000 ≤ u.date.year :=
    ⟨by decide, ⟨⟨2024, 3, 1⟩, 0, 0, 0, 999, some 0⟩, by decide, by decide⟩
  have hfield : FieldName.wire (.text "released_at") = "releasedAt" := by decide
  have hcell : s.get 0 =
      ⟨[⟨"released_at", .betweenDates, .tuple [.datetime low, .datetime high]⟩], []⟩ := rfl
  obtain ⟨body, operand, hbody, hencoded, hselects⟩ :=
    dateCondition_selects_iff (fun _ _ _ => false) hcell (by decide)
      (.interval rfl) (List.forall_mem_cons.mpr ⟨hlow, List.forall_mem_singleton.mpr hhigh⟩)
  rw [hfield] at hencoded
  refine ⟨hlow, hhigh, body, operand, hbody, hencoded, fun t ht => (hselects t ht).trans ?_⟩
  rw [List.forall_mem_cons, List.forall_mem_singleton]
  rfl

/-- An instant in the millisecond of a bound lies before the bound and is not selected. -/
theorem before_not_selected :
    let bound : DateTime := ⟨⟨2023, 9, 15⟩, 12, 0, 0, 500400, some 0⟩
    let t : DateTime := ⟨⟨2023, 9, 15⟩, 12, 0, 0, 500000, some 0⟩
    let s : FilterStore := ⟨[⟨[⟨"released_at", .before, .datetime bound⟩], []⟩]⟩
    s.Built ∧ IsStamp t ∧ t.utcInstant < bound.utcInstant ∧ ∃ body operand,
      s.compile 0 = .ok body ∧
      matchBody .storage (.object body) = .ok (.object [("releasedAt", operand)]) ∧
      holds (fun _ _ _ => false) operand (some (.datetime t)) = false := by
  intro bound t s
  have hnew : FilterStore.Built ⟨[.empty]⟩ := .new .empty
  have hadd : FilterStore.add ⟨[.empty]⟩ 0 (.text "released_at") (.text "before")
      (.datetime bound) = .ok s := rfl
  have hcondition : IsDateCondition .before (.datetime bound) [(.before, bound)] :=
    .single rfl bound
  have hbound : List.Forall₂ IsBound [(.before, bound)] [("$lt", bound)] :=
    .cons ⟨rfl, rfl, by decide, by decide⟩ .nil
  have hfield : FieldName.wire (.text "released_at") = "releasedAt" := by decide
  have hkey : isLogical "releasedAt" = false := by decide
  have hencoded := hcondition.encode hbound hkey
  rw [← hfield] at hencoded
  have ht : IsStamp t := ⟨by decide, rfl, by decide, by decide⟩
  refine ⟨.add hnew hadd, ht, by decide, _, _, hcondition.compile hbound rfl, hencoded, ?_⟩
  rw [← Bool.not_eq_true, hcondition.holds_iff hbound _ ht, List.forall_mem_singleton]
  show ¬t.utcInstant < DateTime.millisecond bound.utcInstant
  decide

end Selection

end DocQuery
