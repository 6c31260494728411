-- SUMMARY: Modifiers for different parts of a query can be attached in any order.
import DocQuery.Proofs.Query.Modifiers

/-!
# Orders of attachment

A query is built by modifiers in any order. Rows of modifiers that agree on each part of a
query make the same query, whatever stands between the modifiers for one part. So its
pipeline can be told from the modifiers for each part alone.
-/

namespace DocQuery

namespace Modifier

/-! ## Modifiers for one part -/

/-- It adds constraints. -/
def isCondition : Modifier → Bool
  | .constrain .. | .constrainAll _ => true
  | _ => false

/-- It adds a group of alternatives. -/
def isChoice : Modifier → Bool
  | .choose _ => true
  | _ => false

/-- It adds orderings. -/
def isOrder : Modifier → Bool
  | .order _ => true
  | _ => false

/-- It adds fields. -/
def isKeys : Modifier → Bool
  | .keys _ => true
  | _ => false

/-- The number of rows to skip that the last call sets; none are skipped without a call. -/
def lastSkip (ms : List Modifier) : Value :=
  (ms.filterMap skip?).getLast?.getD (.int 0)

/-- The limit that the last call sets; there is none without a call. -/
def lastLimit (ms : List Modifier) : Value :=
  (ms.filterMap limit?).getLast?.getD .null

/-- Two rows have the same modifiers for each part that modifiers add to, in the same order,
    and the same last ones for the parts that modifiers set. -/
structure SameParts (ms ms' : List Modifier) : Prop where
  conditions : ms.filter isCondition = ms'.filter isCondition
  choices : ms.filter isChoice = ms'.filter isChoice
  orders : ms.filter isOrder = ms'.filter isOrder
  keys : ms.filter isKeys = ms'.filter isKeys
  skip : lastSkip ms = lastSkip ms'
  limit : lastLimit ms = lastLimit ms'

theorem flatMap_filter {α : Type} {part : Modifier → List α} {isPart : Modifier → Bool}
    (hpart : ∀ m, isPart m = false → part m = []) (ms : List Modifier) :
    (ms.filter isPart).flatMap part = ms.flatMap part := by
  induction ms with
  | nil => rfl
  | cons m ms ih =>
    cases hm : isPart m with
    | true => rw [List.filter_cons_of_pos hm, List.flatMap_cons, List.flatMap_cons, ih]
    | false =>
      rw [List.filter_cons_of_neg (Bool.not_eq_true _ ▸ hm), List.flatMap_cons, hpart m hm, ih,
        List.nil_append]

/-- What rows add to a part is the same when they have the same modifiers for it. -/
theorem flatMap_congr_filter {α : Type} {part : Modifier → List α} {isPart : Modifier → Bool}
    (hpart : ∀ m, isPart m = false → part m = []) {ms ms' : List Modifier}
    (h : ms.filter isPart = ms'.filter isPart) : ms.flatMap part = ms'.flatMap part := by
  rw [← flatMap_filter hpart, h, flatMap_filter hpart]

theorem foldl_chooseIn_filter (own : FilterId) (ms : List Modifier) (s : FilterStore) :
    (ms.filter isChoice).foldl (chooseIn own) s = ms.foldl (chooseIn own) s := by
  induction ms generalizing s with
  | nil => rfl
  | cons m ms ih =>
    cases m with
    | choose alternatives =>
      rw [List.filter_cons_of_pos rfl, List.foldl_cons, List.foldl_cons, ih]
    | _ => exact ih s

theorem SameParts.offersOthers {ms ms' : List Modifier} (h : SameParts ms ms') {own : FilterId}
    (hms : ∀ m ∈ ms, m.OffersOthers own) : ∀ m ∈ ms', m.OffersOthers own := by
  intro m hm
  cases m with
  | choose alternatives =>
    have hmem : .choose alternatives ∈ ms'.filter isChoice := List.mem_filter.mpr ⟨hm, rfl⟩
    rw [← h.choices] at hmem
    exact hms _ (List.mem_of_mem_filter hmem)
  | _ => trivial

end Modifier

/-! ## Rows of modifiers on a new query -/

namespace Draft

/-- Each modifier of the row succeeds, on what those before it left. -/
inductive Modified : Draft → List Modifier → Draft → Prop
  | nil (d : Draft) : Modified d [] d
  | cons {d d' e : Draft} {m : Modifier} {ms : List Modifier} (h : d.modify m = ⟨d', none⟩)
    (hrest : Modified d' ms e) : Modified d (m :: ms) e

theorem Modified.eq_foldl {d e : Draft} {ms : List Modifier} (h : Modified d ms e) :
    e = ms.foldl Modifier.applyTo d := by
  induction h with
  | nil d => rfl
  | cons h _ ih => rw [List.foldl_cons, ← eq_applyTo h, ih]

/-- An ordering is added for each that a successful modifier names. -/
theorem Modified.orders_ne_nil_iff {d e : Draft} {ms : List Modifier} (h : Modified d ms e) :
    ms.flatMap Modifier.orders ≠ [] ↔ ∃ o os, .order (o :: os) ∈ ms := by
  induction h with
  | nil d => simp
  | @cons d d' e m ms h hrest ih =>
    rw [List.flatMap_cons, ne_eq, List.append_eq_nil_iff, not_and_or, ← ne_eq, ← ne_eq, ih]
    simp only [List.mem_cons, exists_or]
    refine or_congr_left ?_
    cases m with
    | order vs =>
      obtain ⟨os, hos, _⟩ := exists_of_addOrders h
      have hlength := (mapM_eq_ok_iff.mp hos).length_eq
      rw [Modifier.orders, hos]
      cases vs <;> cases os <;> simp_all [Except.toOption]
    | _ => simp [Modifier.orders]

theorem names_ne_nil_iff (ms : List Modifier) :
    ms.flatMap Modifier.names ≠ [] ↔ ∃ k ks, .keys (k :: ks) ∈ ms := by
  induction ms with
  | nil => simp
  | cons m ms ih =>
    rw [List.flatMap_cons, ne_eq, List.append_eq_nil_iff, not_and_or, ← ne_eq, ← ne_eq, ih]
    simp only [List.mem_cons, exists_or]
    refine or_congr_left ?_
    cases m with
    | keys names => cases names <;> simp [Modifier.names]
    | _ => simp [Modifier.names]

/-- A query that nothing has been attached to, and whose filter nothing refers to. -/
structure IsNew (d : Draft) : Prop where
  own : d.filters.IsOwn d.query.filter
  cell : d.filters.get d.query.filter = .empty
  query : d.query = { className := d.query.className, filter := d.query.filter }

theorem isNew_of_make {filters : FilterStore} (hclosed : filters.IsClosed) {className : Value}
    {d : Draft} (h : make filters className = .ok d) : d.IsNew := by
  unfold make at h
  split at h
  · cases h
    refine ⟨FilterStore.isOwn_push_empty hclosed, ?_, rfl⟩
    simp [FilterStore.get]
  · cases h

/-- Modifiers for different parts of a new query can be attached in any order, as long as its
    own filter is not offered to it: rows with the same modifiers for each part make the same
    query. Its pipeline, if it has one, filters, sorts, skips, limits and projects, in this
    order, and each of this exactly when something asks for it. -/
theorem pipeline_of_sameParts {d : Draft} (hd : d.IsNew) {ms ms' : List Modifier}
    (hothers : ∀ m ∈ ms, m.OffersOthers d.query.filter) (hsame : Modifier.SameParts ms ms')
    {e e' : Draft} (he : Modified d ms e) (he' : Modified d ms' e') :
    e.stages = e'.stages ∧ e.pipeline = e'.pipeline ∧
      ∀ p, e.pipeline = .ok p → ∃ names : List String, p.map Stage.key? = names.map some ∧
        names.Sublist ["$match", "$sort", "$skip", "$limit", "$project"] ∧
        ("$match" ∈ names ↔ (e.filters.get e.query.filter).isEmpty = false) ∧
        ("$sort" ∈ names ↔ ∃ o os, .order (o :: os) ∈ ms) ∧
        ("$skip" ∈ names ↔
          Modifier.lastSkip ms ≠ .null ∧ (Modifier.lastSkip ms == .int 0) = false) ∧
        ("$limit" ∈ names ↔ Modifier.lastLimit ms ≠ .null) ∧
        ("$project" ∈ names ↔ ∃ k ks, .keys (k :: ks) ∈ ms) := by
  have hfinal := Modifier.foldl_applyTo hd.own hothers
  have hfinal' := Modifier.foldl_applyTo hd.own (hsame.offersOthers hothers)
  rw [← he.eq_foldl] at hfinal
  rw [← he'.eq_foldl] at hfinal'
  have hquery := hd.query
  have heq : e = e' := by
    have hconditions : ms.flatMap Modifier.constraints = ms'.flatMap Modifier.constraints := by
      refine Modifier.flatMap_congr_filter (fun m hm => ?_) hsame.conditions
      cases m <;> first | rfl | cases hm
    have horders : ms.flatMap Modifier.orders = ms'.flatMap Modifier.orders := by
      refine Modifier.flatMap_congr_filter (fun m hm => ?_) hsame.orders
      cases m <;> first | rfl | cases hm
    have hkeys : ms.flatMap Modifier.names = ms'.flatMap Modifier.names := by
      refine Modifier.flatMap_congr_filter (fun m hm => ?_) hsame.keys
      cases m <;> first | rfl | cases hm
    have hchoices : ms.foldl (Modifier.chooseIn d.query.filter) d.filters =
        ms'.foldl (Modifier.chooseIn d.query.filter) d.filters := by
      rw [← Modifier.foldl_chooseIn_filter, hsame.choices, Modifier.foldl_chooseIn_filter]
    have hskip : (ms.filterMap Modifier.skip?).getLast?.getD d.query.skip =
        (ms'.filterMap Modifier.skip?).getLast?.getD d.query.skip := by
      rw [hquery]
      exact hsame.skip
    have hlimit : (ms.filterMap Modifier.limit?).getLast?.getD d.query.limit =
        (ms'.filterMap Modifier.limit?).getLast?.getD d.query.limit := by
      rw [hquery]
      exact hsame.limit
    rw [hfinal, hfinal', hconditions, horders, hkeys, hchoices, hskip, hlimit]
  refine ⟨by rw [heq], by rw [heq], fun p hp => ?_⟩
  obtain ⟨names, hnames, hsublist, hmatch, hsort, hskip, hlimit, hproject⟩ := keys_pipeline hp
  refine ⟨names, hnames, hsublist, hmatch, ?_, ?_, ?_, ?_⟩
  · rw [hsort, ← he.orders_ne_nil_iff, hfinal, hquery]
    rfl
  · rw [hskip, hfinal, hquery]
    rfl
  · rw [hlimit, hfinal, hquery]
    rfl
  · rw [hproject, ← names_ne_nil_iff, hfinal, hquery]
    rfl

/-- The same calls in two orders, one of them offering a filter that was built before. -/
theorem pipeline_of_sameParts_shuffled :
    let filters : FilterStore := ⟨[⟨[⟨"genre", .equal, .text "rock"⟩], []⟩]⟩
    let d : Draft := ⟨⟨filters.cells ++ [.empty]⟩, { className := .text "Song", filter := 1 }⟩
    let ms : List Modifier := [.order [.text "-plays"], .skip (.int 20), .choose [.filter 0],
      .constrain (.text "plays") (.text "gt") (.int 3), .limit (.int 5), .limit (.int 10)]
    let ms' : List Modifier := [.limit (.int 10), .choose [.filter 0], .order [.text "-plays"],
      .constrain (.text "plays") (.text "gt") (.int 3), .skip (.int 7), .skip (.int 20)]
    make filters (.text "Song") = .ok d ∧ d.IsNew ∧
      (∀ m ∈ ms, m.OffersOthers d.query.filter) ∧ Modifier.SameParts ms ms' ∧
      ∃ e e', Modified d ms e ∧ Modified d ms' e' ∧
        e.stages = e'.stages ∧ e.pipeline = e'.pipeline := by
  intro filters d ms ms'
  have hmake : make filters (.text "Song") = .ok d := rfl
  have hclosed : filters.IsClosed := by
    have hnew : FilterStore.Built ⟨[.empty]⟩ := .new .empty
    have hadd : FilterStore.add ⟨[.empty]⟩ 0 (.text "genre") (.text "eq") (.text "rock") =
        .ok filters := rfl
    exact FilterStore.isClosed_of_built (.add hnew hadd)
  have hd := isNew_of_make hclosed hmake
  have hothers : ∀ m ∈ ms, m.OffersOthers d.query.filter := by
    simp [ms, d, Modifier.OffersOthers, Alternative.IsOther]
  have hsame : Modifier.SameParts ms ms' := ⟨rfl, rfl, rfl, rfl, rfl, rfl⟩
  have he : ∃ e, Modified d ms e :=
    ⟨_, .cons rfl (.cons rfl (.cons rfl (.cons rfl (.cons rfl (.cons rfl (.nil _))))))⟩
  have he' : ∃ e, Modified d ms' e :=
    ⟨_, .cons rfl (.cons rfl (.cons rfl (.cons rfl (.cons rfl (.cons rfl (.nil _))))))⟩
  obtain ⟨e, he⟩ := he
  obtain ⟨e', he'⟩ := he'
  obtain ⟨hstages, hpipeline, _⟩ := pipeline_of_sameParts hd hothers hsame he he'
  exact ⟨hmake, hd, hothers, hsame, e, e', he, he', hstages, hpipeline⟩

end Draft

end DocQuery
