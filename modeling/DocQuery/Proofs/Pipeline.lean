-- SUMMARY: The pipeline of a query has those stages that have something to do, in a fixed order.
import DocQuery.Proofs.Filter.Sharing
import DocQuery.Proofs.Value.Equal
import DocQuery.Query.Basic

/-!
# The stages of a pipeline

A pipeline is a row of documents with one key, which is the store's name of the stage. The
pipeline of a query has at most five of them, in a fixed order, and each is there when the
query asks for it.
-/

namespace DocQuery

/-! ## Names of stages -/

namespace Stage

/-- The store's name of a stage, if the kind of the stage settles it. -/
def storeName? : Stage → Option String
  | abstract => none
  | filter _ => some "$match"
  | group _ _ => some "$group"
  | sort _ => some "$sort"
  | skip _ => some "$skip"
  | limit _ => some "$limit"
  | unwind _ => some "$unwind"
  | project _ => some "$project"
  | addFields _ => some "$addFields"
  | count _ => some "$count"
  | raw _ => none

/-- The key of a document that has just one. -/
def key? : Value → Option String
  | .map [(.text key, _)] => some key
  | _ => none

theorem key?_toDocument {s : Stage} {name : String} {v : Value} (hname : s.storeName? = some name)
    (h : s.toDocument = .ok v) : key? v = some name := by
  cases s with
  | abstract => cases hname
  | raw _ => cases hname
  | group _ _ =>
    obtain ⟨es, _, hv⟩ := exists_of_bind_eq_ok h
    cases hv
    exact hname
  | sort fields =>
    rw [toDocument] at h
    split at h
    · cases h
      exact hname
    · cases h
  | unwind _ =>
    obtain ⟨w, _, rfl⟩ := exists_of_map_eq_ok h
    exact hname
  | _ =>
    cases h
    exact hname

end Stage

namespace Pipeline

/-- The stages that a pipeline may have, each under its name. -/
abbrev Slots := List (String × Option Stage)

/-- Each stage is of the kind that its place is for. -/
def Slots.IsNamed (slots : Slots) : Prop :=
  ∀ x ∈ slots, ∀ s, x.2 = some s → s.storeName? = some x.1

/-- The names of the stages that are there. -/
def Slots.names (slots : Slots) : List String :=
  (slots.filter (·.2.isSome)).map (·.1)

theorem names_sublist (slots : Slots) : slots.names.Sublist (slots.map (·.1)) :=
  List.filter_sublist.map _

/-- A pipeline has the stages that are there, under their names. -/
theorem keys_toPipeline {slots : Slots} (hslots : slots.IsNamed) {p : List Value}
    (h : Stage.toPipeline ((slots.map (·.2)).filterMap id) = .ok p) :
    p.map Stage.key? = slots.names.map some := by
  induction slots generalizing p with
  | nil =>
    cases h
    rfl
  | cons x slots ih =>
    obtain ⟨hhead, hrest⟩ := List.forall_mem_cons.mp hslots
    obtain ⟨name, stage?⟩ := x
    cases stage? with
    | none => exact ih hrest h
    | some s =>
      have hcons : (s :: (slots.map (·.2)).filterMap id).mapM Stage.toDocument = .ok p := h
      rw [List.mapM_cons] at hcons
      obtain ⟨doc, hdoc, hcons⟩ := exists_of_bind_eq_ok hcons
      obtain ⟨docs, hdocs, hcons⟩ := exists_of_bind_eq_ok hcons
      cases hcons
      have hkey := Stage.key?_toDocument (hhead s rfl) hdoc
      show Stage.key? doc :: docs.map Stage.key? = some name :: _
      rw [hkey, ih hrest hdocs]
      rfl

theorem isNegative_natCast (n : Nat) : isNegative (.int n) = .ok false := by
  have hless : (Number.int n).less (.int 0) = false := by
    have hcompare : compare (n : Int) 0 ≠ .lt := by
      rw [Ne, Std.compare_eq_lt]
      omega
    simpa [Number.less, Number.compare?] using hcompare
  show Except.ok ((Number.int n).less (.int 0)) = _
  rw [hless]

/-- A page is accepted when neither of its bounds is negative. -/
theorem checkCounts_eq_ok_iff {m : Modifiers} : checkCounts m = .ok () ↔
    isNegative m.skip = .ok false ∧ isNegative m.limit = .ok false := by
  constructor
  · intro h
    obtain ⟨skip, hskip, h⟩ := exists_of_bind_eq_ok h
    cases skip with
    | true => cases h
    | false =>
      obtain ⟨limit, hlimit, h⟩ := exists_of_bind_eq_ok h
      cases limit with
      | true => cases h
      | false => exact ⟨hskip, hlimit⟩
  · rintro ⟨hskip, hlimit⟩
    rw [checkCounts, hskip, hlimit]
    rfl

theorem exists_of_stages {filter : Except Error (Option Stage)} {m : Modifiers}
    {stages : List Stage} (h : Pipeline.stages filter m = .ok stages) : ∃ first sort project,
      checkCounts m = .ok () ∧ filter = .ok first ∧ sortStageOf? m.order = .ok sort ∧
      projectStage? m.keys = .ok project ∧
      stages = [first, sort, skipStage? m.skip, limitStage? m.limit, project].filterMap id := by
  obtain ⟨_, hcounts, h⟩ := exists_of_bind_eq_ok h
  obtain ⟨first, hfirst, h⟩ := exists_of_bind_eq_ok h
  obtain ⟨sort, hsort, h⟩ := exists_of_bind_eq_ok h
  obtain ⟨project, hproject, h⟩ := exists_of_bind_eq_ok h
  cases h
  exact ⟨first, sort, project, hcounts, hfirst, hsort, hproject, rfl⟩

theorem eq_of_sortStage? {orders : List Order} {s : Stage} (h : sortStage? orders = some s) :
    s = .sort (orders.map fun o =>
      (.text (FieldName.wire (.text o.field)), .int o.direction.sign)) := by
  unfold sortStage? at h
  split at h <;> cases h
  rfl

theorem eq_of_skipStage? {skip : Value} {s : Stage} (h : skipStage? skip = some s) :
    s = .skip skip := by
  unfold skipStage? at h
  split at h <;> cases h
  rfl

theorem eq_of_limitStage? {limit : Value} {s : Stage} (h : limitStage? limit = some s) :
    s = .limit limit := by
  unfold limitStage? at h
  split at h <;> cases h
  rfl

/-- A number of rows to skip counts unless it is null or zero. -/
theorem skipStage?_isSome_iff {skip : Value} {negative : Bool}
    (h : isNegative skip = .ok negative) :
    (skipStage? skip).isSome ↔ skip ≠ .null ∧ (skip == .int 0) = false := by
  have hgiven : (skipStage? skip).isSome = skip.isGiven := by
    unfold skipStage?
    cases skip.isGiven <;> rfl
  rw [hgiven]
  cases hnumber : skip.number? with
  | some n =>
    have hnull : skip ≠ .null := by
      rintro rfl
      cases hnumber
    rw [Value.isGiven_of_number hnumber]
    simp [hnull]
  | none =>
    cases skip with
    | null => simp [Value.isGiven]
    | bool _ => cases hnumber
    | int _ => cases hnumber
    | float _ => cases hnumber
    | _ => cases h

end Pipeline

/-! ## Queries -/

namespace Draft

open Pipeline

theorem isSome_of_filterStage? {d : Draft} {stage? : Option Stage}
    (h : d.filterStage? = .ok stage?) :
    stage?.isSome ↔ (d.filters.get d.query.filter).isEmpty = false := by
  obtain ⟨f, hf, h⟩ := exists_of_bind_eq_ok h
  rw [← FilterStore.isEmpty_of_resolve? (FilterStore.resolve_eq_ok_iff.mp hf)]
  unfold Pipeline.filterStage? at h
  cases hempty : f.isEmpty with
  | true =>
    rw [hempty] at h
    cases h
    simp
  | false =>
    rw [hempty] at h
    obtain ⟨body, _, rfl⟩ := exists_of_map_eq_ok h
    simp

theorem exists_filter_of_filterStage? {d : Draft} {s : Stage}
    (h : d.filterStage? = .ok (some s)) : ∃ body, s = .filter body := by
  obtain ⟨f, _, h⟩ := exists_of_bind_eq_ok h
  unfold Pipeline.filterStage? at h
  split at h
  · cases h
  · obtain ⟨body, _, hs⟩ := exists_of_map_eq_ok h
    cases hs
    exact ⟨.object body, rfl⟩

theorem storeName?_of_filterStage? {d : Draft} {s : Stage} (h : d.filterStage? = .ok (some s)) :
    s.storeName? = some "$match" := by
  obtain ⟨body, rfl⟩ := exists_filter_of_filterStage? h
  rfl

theorem sortStageOf?_orderValue (d : Draft) :
    sortStageOf? d.orderValue = .ok (sortStage? d.query.orders) := by
  have hmembers : d.orderValue.givenMembers = .ok (d.query.orders.map .order) := by
    rw [orderValue, Value.givenMembers]
    cases d.query.orders <;> rfl
  have horders : ∀ os : List Order, Order.ofValues (os.map .order) = .ok os := by
    intro os
    refine mapM_eq_ok_iff.mpr (List.forall₂_map_left_iff.mpr ?_)
    exact List.forall₂_same.mpr fun o _ => rfl
  rw [sortStageOf?, hmembers]
  show Order.ofValues (d.query.orders.map .order) >>= _ = _
  rw [horders]
  rfl

theorem projectStage?_list (keys : List Value) : projectStage? (.list keys) =
    .ok (if keys.isEmpty then none else some (.including (keys.map FieldName.wire))) := by
  cases keys <;> rfl

/-- Every stage of a query is one of five. -/
theorem mem_stages_cases {d : Draft} {stages : List Stage} (h : d.stages = .ok stages) {s : Stage}
    (hs : s ∈ stages) : d.filterStage? = .ok (some s) ∨ sortStage? d.query.orders = some s ∨
      skipStage? d.query.skip = some s ∨ limitStage? d.query.limit = some s ∨
      s = .including (d.query.keys.map FieldName.wire) := by
  obtain ⟨first, sort, project, _, hfirst, hsort, hproject, rfl⟩ := exists_of_stages h
  rw [sortStageOf?_orderValue] at hsort
  rw [projectStage?_list] at hproject
  cases hsort
  cases hproject
  obtain ⟨stage?, hmem, hstage⟩ := List.mem_filterMap.mp hs
  obtain rfl : stage? = some s := hstage
  simp only [List.mem_cons, List.not_mem_nil, or_false] at hmem
  rcases hmem with rfl | hmem | hmem | hmem | hmem
  · exact .inl hfirst
  · exact .inr (.inl hmem.symm)
  · exact .inr (.inr (.inl hmem.symm))
  · exact .inr (.inr (.inr (.inl hmem.symm)))
  · split at hmem <;> cases hmem
    exact .inr (.inr (.inr (.inr rfl)))

/-- The pipeline of a query filters, sorts, skips, limits and projects, in this order, each at
    most once and only when it has something to do. -/
theorem keys_pipeline {d : Draft} {p : List Value} (h : d.pipeline = .ok p) :
    ∃ names : List String, p.map Stage.key? = names.map some ∧
      names.Sublist ["$match", "$sort", "$skip", "$limit", "$project"] ∧
      ("$match" ∈ names ↔ (d.filters.get d.query.filter).isEmpty = false) ∧
      ("$sort" ∈ names ↔ d.query.orders ≠ []) ∧
      ("$skip" ∈ names ↔ d.query.skip ≠ .null ∧ (d.query.skip == .int 0) = false) ∧
      ("$limit" ∈ names ↔ d.query.limit ≠ .null) ∧
      ("$project" ∈ names ↔ d.query.keys ≠ []) := by
  obtain ⟨stages, hstages, hp⟩ := exists_of_bind_eq_ok h
  obtain ⟨first, sort, project, hcounts, hfirst, hsort, hproject, rfl⟩ := exists_of_stages hstages
  obtain ⟨negative, hskip, _⟩ := exists_of_bind_eq_ok hcounts
  rw [sortStageOf?_orderValue] at hsort
  rw [projectStage?_list] at hproject
  cases hsort
  cases hproject
  let slots : Slots := [("$match", first), ("$sort", sortStage? d.query.orders),
    ("$skip", skipStage? d.query.skip), ("$limit", limitStage? d.query.limit),
    ("$project", if d.query.keys.isEmpty then none
      else some (.including (d.query.keys.map FieldName.wire)))]
  have hnamed : slots.IsNamed := by
    simp only [slots, Slots.IsNamed, List.forall_mem_cons]
    refine ⟨?_, ?_, ?_, ?_, ?_, nofun⟩
    · rintro s rfl
      exact storeName?_of_filterStage? hfirst
    · intro s hs
      unfold sortStage? at hs
      split at hs <;> cases hs
      rfl
    · intro s hs
      unfold skipStage? at hs
      split at hs <;> cases hs
      rfl
    · intro s hs
      unfold limitStage? at hs
      split at hs <;> cases hs
      rfl
    · intro s hs
      split at hs <;> cases hs
      rfl
  have hsortSome : (sortStage? d.query.orders).isSome ↔ d.query.orders ≠ [] := by
    cases d.query.orders <;> simp [sortStage?]
  have hlimitSome : (limitStage? d.query.limit).isSome ↔ d.query.limit ≠ .null := by
    cases d.query.limit <;> simp [limitStage?]
  have hmem : ∀ name, name ∈ slots.names ↔ ∃ x ∈ slots, x.2.isSome ∧ x.1 = name := by
    simp [Slots.names, and_assoc]
  refine ⟨slots.names, keys_toPipeline hnamed hp, names_sublist slots, ?_, ?_, ?_, ?_, ?_⟩
  · rw [hmem, ← isSome_of_filterStage? hfirst]
    simp [slots]
  · rw [hmem, ← hsortSome]
    simp [slots]
  · rw [hmem, ← skipStage?_isSome_iff hskip]
    simp [slots]
  · rw [hmem, ← hlimitSome]
    simp [slots]
  · rw [hmem]
    simp [slots]

end Draft

end DocQuery
