-- SUMMARY: Counts, groupings and distinct values of one query agree over stored documents.
import DocQuery.Proofs.Group.Lookup
import DocQuery.Proofs.Query.Distinct
import Mathlib.Data.List.Permutation

/-!
# Counts, groups and distinct values

Four operations of a query make pipelines of their own: the count of its rows, a grouping by
a field, the number of distinct values of the field, and the values themselves. All of them
start from the same filter and read the same keys, so their outcomes agree: the sizes of the
groups add up to the count, there are as many groups as distinct values, and all values but
null are listed.

A grouping that collects rows sorts them before. Two orderings may name one column although
they name two fields; the later of them then takes the place of the earlier.
-/

namespace DocQuery

open Document (IsShownAs toWire)
open Encoding (Reaches)
open Store (AreComparable Precedes keyAt withKeys)

variable {search : Value → Bool → Value → Bool} {d : Draft} {p : FieldPlan}
  {docs matched : List Value}

/-! ## Collected rows -/

/-- The orderings by which the rows of the groups are collected: those of the plan, or else
    those of the query. -/
def FieldPlan.memberOrders (p : FieldPlan) (queryOrders : List Order) : List Order :=
  if p.rowOrder.orders.isEmpty then queryOrders else p.rowOrder.orders

/-- Documents can be collected by orderings: these name different fields, by each of which the
    documents can be compared, and the documents can be shown. -/
structure AreCollectable (orders : List Order) (matched : List Value) : Prop where
  fields : (orders.map fun o => FieldName.wire (.text o.field)).Nodup
  comparable : ∀ o ∈ orders, AreComparable o.column matched
  documents : ∀ doc ∈ matched, Document.IsDocument doc
  shown : ∀ doc ∈ matched, ∃ w, toWire doc .null = .ok w

/-- The documents are sorted before they are grouped, if they are collected. -/
theorem FieldPlan.exists_sorted (search : Value → Bool → Value → Bool)
    (hsub : matched.Sublist docs) (queryOrders : List Order)
    (hcollect : p.rowOrder.isWanted = true →
      AreCollectable (p.memberOrders queryOrders) matched) : ∃ encoded sorted,
      List.Forall₂ Reaches ((GroupPlan.byField p).sortStage? queryOrders).toList encoded ∧
      Store.run? search matched encoded = some sorted ∧ sorted.Perm matched ∧
      (p.rowOrder.isWanted = true →
        sorted.Pairwise (Precedes docs (Order.sortColumns (p.memberOrders queryOrders)))) := by
  have hstage : (GroupPlan.byField p).sortStage? queryOrders =
      if p.rowOrder.isWanted then Pipeline.sortStage? (p.memberOrders queryOrders) else none := rfl
  rw [hstage]
  cases hwanted : p.rowOrder.isWanted with
  | false => exact ⟨[], matched, .nil, rfl, .refl _, fun h => nomatch h⟩
  | true =>
    obtain ⟨hfields, hcomparable, _, _⟩ := hcollect hwanted
    have hcolumns : ∀ c ∈ Order.sortColumns (p.memberOrders queryOrders),
        AreComparable c.1 matched := by
      intro c hc
      obtain ⟨o, ho, hcolumn⟩ := List.mem_map.mp (Order.column_mem_of_mem_sortColumns hc)
      rw [← hcolumn]
      exact hcomparable o ho
    obtain ⟨sorted, hsorted, hperm, hpairwise⟩ := Store.sortBy?_spec hsub hcolumns
    cases hsort : Pipeline.sortStage? (p.memberOrders queryOrders) with
    | none =>
      have hnone : p.memberOrders queryOrders = [] := by
        unfold Pipeline.sortStage? at hsort
        split at hsort
        · exact List.isEmpty_iff.mp ‹_›
        · cases hsort
      rw [hnone] at hsorted
      cases hsorted
      exact ⟨[], matched, .nil, rfl, hperm, fun _ => hpairwise⟩
    | some s =>
      exact ⟨_, sorted, .cons (Encoding.reaches_sort hfields hsort) .nil,
        Store.run?_cons ((Store.stage?_sort _ _).trans hsorted) [], hperm, fun _ => hpairwise⟩

/-! ## Groups -/

namespace FieldPlan

/-- The documents with a key. -/
def rowsWith (p : FieldPlan) (rows : List Value) (key : Value) : List Value :=
  rows.filter fun row => keyAt p.path row == key

/-- A group stands for the documents with a key: it shows the key and their number, and when
    they are collected it has them sorted by the columns of the orderings. That is the order in
    which the orderings were declared if they name different columns. -/
structure IsGroup (p : FieldPlan) (docs matched : List Value) (orders : List Order)
    (raw : Value) (g : Group) : Prop where
  key : ∃ w, IsShownAs raw w ∧ (GroupPlan.byField p).decodeKey w = .ok g.key
  count : g.count = .int (p.rowsWith matched raw).length
  uncollected : p.rowOrder.isWanted = false → g.members = .null
  collected : p.rowOrder.isWanted = true → ∃ rows shown, g.members = .tuple shown ∧
    List.Forall₂ (fun row w => toWire row .null = .ok w) rows shown ∧
    rows.Perm (p.rowsWith matched raw) ∧
    rows.Pairwise (Precedes docs (Order.sortColumns orders)) ∧
    ((orders.map Order.column).Nodup → rows.Pairwise (Precedes docs (Order.columns orders)))

theorem snd_of_mem_groups {rows : List Value} (hkeys : p.HasKeys rows)
    {g : Value × List Value} (hg : g ∈ p.groups rows) : g.2 = p.rowsWith rows g.1 := by
  rw [hkeys.areGathered.members g hg, Store.rowsOf_withKeys, rowsWith]

/-- The row of a group is shown with its key and its collected rows. -/
theorem toWire_group (collects : Bool) {g : Value × List Value} {w : Value} {ws : List Value}
    (hw : IsShownAs g.1 w) (hws : collects = true → List.Forall₂ IsShownAs g.2 ws) :
    toWire (.object (("key", g.1) :: Store.groupFields collects g)) .null =
      .ok (GroupPlan.shownRow collects w g.2.length ws) := by
  have hkeys : ∀ f ∈ ("key", g.1) :: Store.groupFields collects g,
      f.1 ∈ ["key", "count", "members"] := by
    cases collects <;> simp [Store.groupFields]
  have hnodup : (Assoc.keys (("key", g.1) :: Store.groupFields collects g)).Nodup := by
    cases collects <;> simp [Store.groupFields, Assoc.keys]
  refine Document.toWire_of_plain (fun f hf => GroupPlan.isField_of_mem (hkeys f hf)) hnodup
    (.cons ⟨rfl, hw⟩ (.cons ⟨rfl, Document.isShownAs_int _⟩ ?_))
  cases collects with
  | false => exact .nil
  | true => exact .cons ⟨rfl, Document.isShownAs_list (hws rfl)⟩ .nil

/-- The row of each group is shown, read, and stands for the documents with its key. -/
theorem exists_group {orders : List Order} {sorted : List Value} (hperm : sorted.Perm matched)
    (hkeys : p.HasKeys sorted)
    (hcollect : p.rowOrder.isWanted = true → AreCollectable orders matched)
    (hsorted : p.rowOrder.isWanted = true →
      sorted.Pairwise (Precedes docs (Order.sortColumns orders)))
    (className : Value) {g : Value × List Value} (hg : g ∈ p.groups sorted) :
    ∃ x : Value × Group,
      toWire (.object (("key", g.1) :: Store.groupFields p.rowOrder.isWanted g)) .null = .ok x.1 ∧
      (GroupPlan.byField p).decodeRow className x.1 = .ok x.2 ∧
      (∃ k, x.2.key.hashedKey = .ok k) ∧ x.2.count = .int g.2.length ∧
      p.IsGroup docs matched orders g.1 x.2 := by
  have hrows : g.2 = p.rowsWith sorted g.1 := snd_of_mem_groups hkeys hg
  have hmembers : g.2.Perm (p.rowsWith matched g.1) := by
    rw [hrows]
    exact hperm.filter _
  obtain ⟨w, hw, hshown, _⟩ := (hkeys.isKey g hg).exists_shown
  obtain ⟨key, hkey, hhashed⟩ := GroupPlan.exists_decodeKey p hshown
  obtain ⟨ws, hws⟩ : ∃ ws, p.rowOrder.isWanted = true → List.Forall₂
      (fun row w => toWire row .null = .ok w ∧ IsShownAs row w) g.2 ws := by
    cases hwanted : p.rowOrder.isWanted with
    | false => exact ⟨[], fun h => nomatch h⟩
    | true =>
      have hrow : ∀ row ∈ g.2, ∃ w, toWire row .null = .ok w ∧ IsShownAs row w := by
        intro row hrow
        have hmatched : row ∈ matched := List.mem_of_mem_filter (hmembers.subset hrow)
        obtain ⟨w, hw⟩ := (hcollect hwanted).shown row hmatched
        exact ⟨w, hw, ((hcollect hwanted).documents row hmatched).isShownAs hw⟩
      obtain ⟨ws, hws⟩ := exists_forall₂ hrow
      exact ⟨ws, fun _ => hws⟩
  have hinner : p.rowOrder.isWanted = true → List.Forall₂ IsShownAs g.2 ws :=
    fun hwanted => (hws hwanted).imp fun _ _ h => h.2
  refine ⟨(_, _), toWire_group p.rowOrder.isWanted hw hinner,
    GroupPlan.decodeRow_shownRow g.2.length ws hkey, hhashed, rfl, ⟨w, hw, hkey⟩, ?_,
    fun hwanted => ?_, fun hwanted => ?_⟩
  · show Value.int _ = _
    rw [hmembers.length_eq]
  · show GroupPlan.members _ _ = _
    rw [hwanted]
    rfl
  · have hordered : g.2.Pairwise (Precedes docs (Order.sortColumns orders)) := by
      rw [hrows]
      exact (hsorted hwanted).sublist List.filter_sublist
    refine ⟨g.2, ws, ?_, (hws hwanted).imp fun _ _ h => h.1, hmembers, hordered, fun hcolumns => ?_⟩
    · show GroupPlan.members _ _ = _
      rw [hwanted]
      rfl
    · rw [← Order.sortColumns_of_nodup hcolumns]
      exact hordered

end FieldPlan

/-- What a grouping and a search for distinct values find agrees with the documents: the keys
    that the rows of the grouping start from differ, the counts add up to all documents, there
    is a value for each key that is not null, and each group stands for its documents. -/
structure FieldPlan.Agrees (p : FieldPlan) (docs matched : List Value) (orders : List Order)
    (groupRows raws : List Value) (result : GroupResult) (values : List Value) : Prop where
  rows : List.Forall₂ (fun row raw => Selection.at? row "key" = some raw) groupRows raws
  differ : raws.Pairwise fun a b => (a == b) = false
  counts : ∃ sizes : List Nat, result.counts = sizes.map (fun n : Nat => .int n) ∧
    sizes.sum = matched.length
  values : values.length = (raws.filter fun raw => !raw.isNull).length
  groups : List.Forall₂ (p.IsGroup docs matched orders) raws result.toGroups

namespace Draft

theorem groupPipeline_eq {first : Option Stage} (hfirst : d.filterStage? = .ok first)
    (hflattens : p.flattens = false) :
    d.groupPipeline (.byField p) .count .null = Stage.toPipeline (first.toList
      ++ (((GroupPlan.byField p).sortStage? d.query.orders).toList
        ++ [(GroupPlan.byField p).groupStage (Stage.single "$sum" (.int 1)),
          (GroupPlan.byField p).renameStage])) := by
  have hunwind : (GroupPlan.byField p).unwindStage? = none := by
    simp [GroupPlan.unwindStage?, hflattens]
  have hstages : d.groupStages (.byField p) .count .null = .ok (first.toList
      ++ (((GroupPlan.byField p).sortStage? d.query.orders).toList
        ++ [(GroupPlan.byField p).groupStage (Stage.single "$sum" (.int 1)),
          (GroupPlan.byField p).renameStage])) := by
    rw [groupStages, GroupPlan.stages, hfirst, hunwind]
    cases first <;> cases (GroupPlan.byField p).sortStage? d.query.orders <;> rfl
  rw [groupPipeline, hstages]
  rfl

/-- Rows that are read as groups are read as a result with these groups. -/
theorem exists_decodeGroups {xs : List (Value × Group)}
    (h : ∀ x ∈ xs, (GroupPlan.byField p).decodeRow d.query.className x.1 = .ok x.2 ∧
      ∃ k, x.2.key.hashedKey = .ok k) :
    ∃ result, d.decodeGroups (.byField p) (.list (xs.map (·.1))) = .ok result ∧
      result.toGroups = xs.map (·.2) := by
  have hgroups : List.Forall₂ (fun row g =>
      (GroupPlan.byField p).decodeRow d.query.className row = .ok g ∧
        ∃ k, g.key.hashedKey = .ok k) (xs.map (·.1)) (xs.map (·.2)) := by
    rw [List.forall₂_map_left_iff, List.forall₂_map_right_iff, List.forall₂_same]
    exact h
  obtain ⟨result, hresult, htoGroups, -⟩ := GroupPlan.exists_decode hgroups
  exact ⟨result, hresult, htoGroups⟩

/-- A grouping comes to one group for each key of the documents that the filter leaves. -/
theorem comesTo_group (h : d.Leaves search docs matched)
    (hfield : p.field.toList.head? ≠ some '$') (hflattens : p.flattens = false)
    (hdirect : p.direct = true) (hkeys : p.HasKeys matched)
    (hcollect : p.rowOrder.isWanted = true →
      AreCollectable (p.memberOrders d.query.orders) matched) : ∃ sorted result,
      sorted.Perm matched ∧ p.HasKeys sorted ∧
      d.ComesTo search docs (fun g => d.group g (.byField p) .count .null)
        ((p.groups sorted).map fun g =>
          .object (("key", g.1) :: Store.groupFields p.rowOrder.isWanted g)) result ∧
      List.Forall₂ (fun g group => group.count = .int g.2.length ∧
        p.IsGroup docs matched (p.memberOrders d.query.orders) g.1 group)
        (p.groups sorted) result.toGroups := by
  obtain ⟨sorting, sorted, hsorting, hsorted, hperm, hpairwise⟩ :=
    FieldPlan.exists_sorted search h.sublist d.query.orders hcollect
  have hkeys' : p.HasKeys sorted := fun row hrow => hkeys row (hperm.subset hrow)
  obtain ⟨xs, hxs⟩ := exists_forall₂ fun g hg =>
    FieldPlan.exists_group hperm hkeys' hcollect hpairwise d.query.className hg
  have hreaches : List.Forall₂ Reaches (((GroupPlan.byField p).sortStage? d.query.orders).toList
      ++ [(GroupPlan.byField p).groupStage (Stage.single "$sum" (.int 1)),
        (GroupPlan.byField p).renameStage])
      (sorting ++ [Encoding.countsDocument p.path p.rowOrder.isWanted,
        Encoding.renameDocument p.rowOrder.isWanted]) :=
    List.rel_append hsorting (.cons (Encoding.reaches_counts p)
      (.cons (Encoding.reaches_rename p) .nil))
  have hrun : Store.run? search matched (sorting
      ++ [Encoding.countsDocument p.path p.rowOrder.isWanted,
        Encoding.renameDocument p.rowOrder.isWanted]) =
      some ((p.groups sorted).map fun g =>
        .object (("key", g.1) :: Store.groupFields p.rowOrder.isWanted g)) := by
    rw [Store.run?_append hsorted,
      Store.run?_cons (Store.stage?_counts (p.head?_path hfield) p.rowOrder.isWanted sorted)]
    exact Store.run?_cons (Store.stage?_rename p.rowOrder.isWanted (p.groups sorted)) []
  have hwires : (((p.groups sorted).map fun g =>
      Value.object (("key", g.1) :: Store.groupFields p.rowOrder.isWanted g)).mapM
        fun row => toWire row .null) = .ok (xs.map (·.1)) := by
    rw [mapM_eq_ok_iff, List.forall₂_map_left_iff, List.forall₂_map_right_iff]
    exact hxs.imp fun _ _ hx => hx.1
  have hread := forall_mem_of_forall₂ hxs fun g x hx => And.intro hx.2.1 hx.2.2.1
  obtain ⟨result, hdecode, htoGroups⟩ := exists_decodeGroups hread
  have hmode : (GroupPlan.byField p).mode ≠ .remote := by
    rw [GroupPlan.mode, hdirect]
    decide
  have hpipeline := fun first (hfirst : d.filterStage? = .ok first) =>
    groupPipeline_eq hfirst hflattens
  refine ⟨sorted, result, hperm, hkeys',
    h.comesTo hpipeline hreaches hrun hwires hdecode hmode, ?_⟩
  rw [htoGroups, List.forall₂_map_right_iff]
  exact hxs.imp fun _ _ hx => hx.2.2.2

/-- The count of a query, its groups by a field, the number of distinct values of the field and
    the values themselves agree over all documents that the filter can be put to. -/
theorem groups_agree (h : d.Leaves search docs matched) (hfield : p.field.toList.head? ≠ some '$')
    (hflattens : p.flattens = false) (hdirect : p.direct = true) (hkeys : p.HasKeys matched)
    (hcollect : p.rowOrder.isWanted = true →
      AreCollectable (p.memberOrders d.query.orders) matched)
    (asPointers : Bool) {mode : Mode} (hmode : mode ≠ .remote) :
    ∃ countRows groupRows distinctRows valueRows raws result values,
      d.ComesTo search docs (fun g => d.count g mode) countRows (.int matched.length) ∧
      d.ComesTo search docs (fun g => d.group g (.byField p) .count .null) groupRows result ∧
      d.ComesTo search docs (fun g => d.distinctCount g (p.distinct asPointers) mode)
        distinctRows (.int result.size) ∧
      d.ComesTo search docs (fun g => d.distinct g (p.distinct asPointers) mode) valueRows
        values ∧
      p.Agrees docs matched (p.memberOrders d.query.orders) groupRows raws result values := by
  obtain ⟨sorted, result, hperm, hsorted, hgroup, hgroups⟩ :=
    comesTo_group h hfield hflattens hdirect hkeys hcollect
  obtain ⟨distinctRows, hdistinctCount⟩ := comesTo_distinctCount h hfield asPointers hmode
  obtain ⟨valueRows, values, hdistinct, hvalues⟩ :=
    comesTo_distinct h hfield hkeys asPointers hmode
  have hgathered := hsorted.areGathered
  have hmeanings := hkeys.areGathered.meanings_perm hgathered (hperm.map _)
  have hsize : (p.groups matched).length = result.size := by
    have hlength := hmeanings.length_eq
    rw [List.length_map, List.length_map] at hlength
    rw [← hlength, hgroups.length_eq, GroupResult.size, GroupResult.toGroups, List.length_map]
  refine ⟨_, _, distinctRows, valueRows, (p.groups sorted).map (·.1), result, values,
    comesTo_count h hmode, hgroup, hsize ▸ hdistinctCount, hdistinct, ?_⟩
  refine ⟨?_, ?_, ⟨(p.groups sorted).map (·.2.length), ?_, ?_⟩, ?_, ?_⟩
  · rw [List.forall₂_map_left_iff, List.forall₂_map_right_iff, List.forall₂_same]
    exact fun g _ => Selection.at?_object (by decide) _
  · exact hgathered.keys_differ (Store.isKey_of_mem_withKeys hsorted)
  · rw [GroupResult.counts, List.map_map, eq_comm, ← List.forall₂_eq_eq_eq,
      List.forall₂_map_left_iff, List.forall₂_map_right_iff]
    exact hgroups.imp fun _ _ hx => hx.1.symm
  · rw [hgathered.total, withKeys, List.length_map, hperm.length_eq]
  · rw [hvalues, hgathered.length_given (Store.isKey_of_mem_withKeys hsorted),
      hkeys.areGathered.length_given (Store.isKey_of_mem_withKeys hkeys)]
    exact (hmeanings.filter _).length_eq.symm
  · rw [List.forall₂_map_left_iff]
    exact hgroups.imp fun _ _ hx => hx.2

/-- Songs by genre, the most played of a genre first. -/
theorem groups_agree_songs :
    let song : String → Value → Int → Value := fun id genre plays =>
      .object [("_id", .text id), ("genre", genre), ("plays", .int plays)]
    let p : FieldPlan := ⟨"genre", false, .given [⟨"plays", .descending⟩], false, true⟩
    let d : Draft := ⟨⟨[⟨[⟨"plays", .greater, .int 0⟩], []⟩]⟩,
      { className := .text "Song", filter := 0 }⟩
    let docs := [song "a" (.text "rock") 3, song "b" .null 5, song "c" (.text "rock") 7,
      song "d" (.text "jazz") 0]
    let matched := [song "a" (.text "rock") 3, song "b" .null 5, song "c" (.text "rock") 7]
    d.Leaves (fun _ _ _ => false) docs matched ∧ p.HasKeys matched ∧
      AreCollectable (p.memberOrders d.query.orders) matched ∧
      ∃ countRows groupRows distinctRows valueRows raws result values,
        d.ComesTo (fun _ _ _ => false) docs (fun g => d.count g .auto) countRows
          (.int matched.length) ∧
        d.ComesTo (fun _ _ _ => false) docs (fun g => d.group g (.byField p) .count .null)
          groupRows result ∧
        d.ComesTo (fun _ _ _ => false) docs (fun g => d.distinctCount g (p.distinct true) .auto)
          distinctRows (.int result.size) ∧
        d.ComesTo (fun _ _ _ => false) docs (fun g => d.distinct g (p.distinct true) .auto)
          valueRows values ∧
        p.Agrees docs matched (p.memberOrders d.query.orders) groupRows raws result values := by
  intro song p d docs matched
  let body : Value := .object [("plays", .object [("$gt", .int 0)])]
  have hmatched : (docs.filter fun doc => Selection.selects (fun _ _ _ => false) doc body) =
      matched := rfl
  have hleaves : d.Leaves (fun _ _ _ => false) docs matched := by
    have hfirst : d.filterStage? = .ok (some (.filter body)) := rfl
    rw [← hmatched]
    exact .selected hfirst rfl
  have hkeys : p.HasKeys matched := by
    have hpath : p.path = "genre" := by decide +kernel
    have hkeyed : matched.map (keyAt p.path) = [.text "rock", .null, .text "rock"] := by
      rw [hpath]
      rfl
    have hall : ∀ key ∈ matched.map (keyAt p.path), key.IsKey := by
      simp only [hkeyed, List.forall_mem_cons]
      exact ⟨.text "rock", .null, .text "rock", nofun⟩
    exact List.forall_mem_map.mp hall
  have hcomparable : AreComparable "plays" matched := ⟨by decide, by decide, by decide⟩
  have hdocument (id : String) (genre : Value) (plays : Int) :
      Document.IsDocument (song id genre plays) :=
    .mk (by simp [Assoc.keys]) (by simp [Assoc.keys]) (by simp [Assoc.keys])
  have hcollect : AreCollectable (p.memberOrders d.query.orders) matched := by
    refine ⟨by decide, List.forall_mem_singleton.mpr hcomparable, ?_, ?_⟩
    · simp only [matched, List.forall_mem_cons]
      exact ⟨hdocument _ _ _, hdocument _ _ _, hdocument _ _ _, nofun⟩
    · simp only [matched, List.forall_mem_cons]
      exact ⟨Document.exists_toWire rfl, Document.exists_toWire rfl,
        Document.exists_toWire rfl, nofun⟩
  exact ⟨hleaves, hkeys, hcollect, groups_agree hleaves (by decide) rfl rfl hkeys
    (fun _ => hcollect) true (by decide)⟩

/-- Two orderings for different fields may name one column. Then the first of them is lost: a
    group declared by rising ids, and among equal ids by falling ones, is collected by falling
    ids. -/
theorem collected_against_first_order :
    let song : String → Value := fun id => .object [("_id", .text id), ("genre", .text "rock")]
    let shown : String → Value := fun id =>
      .object [("objectId", .text id), ("genre", .text "rock")]
    let orders : List Order := [⟨"id", .ascending⟩, ⟨"_id", .descending⟩]
    let p : FieldPlan := ⟨"genre", false, .given orders, false, true⟩
    let d : Draft := ⟨⟨[.empty]⟩, { className := .text "Song", filter := 0 }⟩
    let docs := [song "a", song "b"]
    d.Leaves (fun _ _ _ => false) docs docs ∧ p.HasKeys docs ∧ AreCollectable orders docs ∧
      Precedes docs (Order.columns orders) (song "a") (song "b") ∧
      ¬ Precedes docs (Order.columns orders) (song "b") (song "a") ∧
      ∃ rows result, d.ComesTo (fun _ _ _ => false) docs
          (fun g => d.group g (.byField p) .count .null) rows result ∧
        result.toGroups.map (·.members) = [.tuple [shown "b", shown "a"]] := by
  intro song shown orders p d docs
  have hsongs {P : Value → Prop} (h : ∀ id, P (song id)) : ∀ doc ∈ docs, P doc :=
    List.forall_mem_cons.mpr ⟨h "a", List.forall_mem_cons.mpr ⟨h "b", nofun⟩⟩
  have hleaves : d.Leaves (fun _ _ _ => false) docs docs := .all rfl
  have hkeyed (id : String) : keyAt p.path (song id) = .text "rock" := by
    have hpath : p.path = "genre" := by decide +kernel
    rw [hpath]
    rfl
  have hkeys : p.HasKeys docs := hsongs fun id => hkeyed id ▸ .text "rock"
  have hfirst : (⟨"id", .ascending⟩ : Order).column = "_id" := by decide +kernel
  have hlast : (⟨"_id", .descending⟩ : Order).column = "_id" := by decide +kernel
  have hcolumn : ∀ o ∈ orders, o.column = "_id" :=
    List.forall_mem_cons.mpr ⟨hfirst, List.forall_mem_singleton.mpr hlast⟩
  have hcomparable : AreComparable "_id" docs := ⟨by decide, by decide, by decide⟩
  have hdocument (id : String) : Document.IsDocument (song id) :=
    .mk (by simp [Assoc.keys]) (by simp [Assoc.keys]) (by simp [Assoc.keys])
  have hshown (id : String) : toWire (song id) .null = .ok (shown id) := rfl
  have hcollect : AreCollectable orders docs :=
    ⟨by decide +kernel, fun o ho => hcolumn o ho ▸ hcomparable, hsongs hdocument,
      hsongs fun id => ⟨_, hshown id⟩⟩
  have hdeclared : Order.columns orders = [("_id", .ascending), ("_id", .descending)] := by
    simp only [orders, Order.columns, List.map_cons, List.map_nil, hfirst, hlast]
  have hsort : Order.sortColumns orders = [("_id", .descending)] := by
    rw [Order.sortColumns_pair (hfirst.trans hlast.symm), hfirst]
  have hrising : ¬ Precedes docs [("_id", .ascending), ("_id", .descending)]
      (song "b") (song "a") := by
    rintro (hba | ⟨hab, _⟩)
    · exact absurd hba (by decide)
    · exact hab (by decide)
  have hfalling : ¬ Precedes docs [("_id", .descending)] (song "a") (song "b") := by
    rintro (hab | ⟨hba, _⟩)
    · exact absurd hab (by decide)
    · exact hba (by decide)
  refine ⟨hleaves, hkeys, hcollect, hdeclared ▸ .inl (by decide), hdeclared ▸ hrising, ?_⟩
  obtain ⟨sorted, result, hperm, -, hcomes, hgroups⟩ :=
    comesTo_group hleaves (by decide) rfl rfl hkeys fun _ => hcollect
  refine ⟨_, result, hcomes, ?_⟩
  have hone : p.groups sorted = [(.text "rock", sorted)] := by
    rcases List.perm_pair.mp hperm with rfl | rfl <;>
      simp only [FieldPlan.groups, withKeys, List.map_cons, List.map_nil, hkeyed] <;> rfl
  rw [hone] at hgroups
  obtain ⟨group, rest, ⟨-, hgroup⟩, hrest, hresult⟩ := List.forall₂_cons_left_iff.mp hgroups
  obtain ⟨rows, ws, hmembers, hws, hrows, hpairwise, -⟩ := hgroup.collected rfl
  have hall : p.rowsWith docs (.text "rock") = docs :=
    List.filter_eq_self.mpr (hsongs fun id => by rw [hkeyed]; rfl)
  have hreversed : rows = [song "b", song "a"] := by
    refine (List.perm_pair.mp (hrows.trans (.of_eq hall))).resolve_left fun h => ?_
    rw [h] at hpairwise
    exact hfalling (hsort ▸ List.pairwise_pair.mp hpairwise)
  have hwires : ws = [shown "b", shown "a"] := by
    rw [hreversed] at hws
    exact Except.ok.inj ((mapM_eq_ok_iff.mpr hws).symm.trans
      (mapM_eq_ok_iff.mpr (.cons (hshown "b") (.cons (hshown "a") .nil))))
  rw [hresult, List.forall₂_nil_left_iff.mp hrest, List.map_cons, hmembers, hwires]
  rfl

end Draft

end DocQuery
