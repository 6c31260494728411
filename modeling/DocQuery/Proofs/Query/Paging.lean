-- SUMMARY: The first row, the rows of a page and the number of all rows agree, and reading them changes nothing.
import DocQuery.Proofs.Query.Copies
import DocQuery.Proofs.Query.Distinct
import DocQuery.Proofs.Store.Paging

/-!
# Pages of a query

Three pipelines are read from one query: the one for its page, the one for the first row of that
page, which is made from a copy with another limit, and the one that counts, which has the filter
only. Over the documents of a store the first is the head of the page, and the count is the length
of the page that leaves nothing out.
-/

namespace DocQuery

open Document (toWire)
open Encoding (Reaches)

variable {search : Value → Bool → Value → Bool} {d : Draft} {docs matched sorted : List Value}
  {mode : Mode}

/-! ## Stages over rows -/

/-- Stages reach the store, and there they make some rows of others. -/
def Turns (search : Value → Bool → Value → Bool) (stages : List Stage) (rows rows' : List Value) :
    Prop :=
  ∃ encoded, List.Forall₂ Reaches stages encoded ∧
    Store.pagedRun? search rows encoded = some rows'

theorem Turns.nil (rows : List Value) : Turns search [] rows rows :=
  ⟨[], .nil, rfl⟩

theorem Turns.one {s : Stage} {encoded : Value} {rows rows' : List Value} (h : Reaches s encoded)
    (hrows : Store.pagedStage? search rows encoded = some rows') : Turns search [s] rows rows' :=
  ⟨[encoded], .cons h .nil, (Store.pagedRun?_singleton rows encoded).trans hrows⟩

theorem Turns.append {stages stages' : List Stage} {rows rows' rows'' : List Value}
    (h : Turns search stages rows rows') (h' : Turns search stages' rows' rows'') :
    Turns search (stages ++ stages') rows rows'' := by
  obtain ⟨encoded, hreaches, hrun⟩ := h
  obtain ⟨encoded', hreaches', hrun'⟩ := h'
  exact ⟨encoded ++ encoded', List.rel_append hreaches hreaches',
    (Store.pagedRun?_append hrun encoded').trans hrun'⟩

/-- A stage that may be missing stands before the others. -/
theorem Turns.cons {s? : Option Stage} {rest : List (Option Stage)} {rows rows' rows'' : List Value}
    (h : Turns search s?.toList rows rows') (h' : Turns search (rest.filterMap id) rows' rows'') :
    Turns search ((s? :: rest).filterMap id) rows rows'' := by
  have hstages : (s? :: rest).filterMap id = s?.toList ++ rest.filterMap id := by
    cases s? <;> rfl
  rw [hstages]
  exact h.append h'

/-! ## The stages of a query -/

/-- The rows of a page: some are skipped, and of the others as many are kept as the limit says. -/
def page (skip : Nat) (limit : Option Nat) (rows : List Value) : List Value :=
  limit.elim (rows.drop skip) (rows.drop skip).take

/-- What the keys of a query leave of a row. Without keys a row is left as it is. -/
def shape (keys : List Value) (row : Value) : Value :=
  if keys.isEmpty then row else Store.kept (Encoding.keptColumns (keys.map FieldName.wire)) row

/-- A limit as callers write it. -/
def limitValue (limit : Option Nat) : Value :=
  limit.elim .null fun n => .int n

/-- The query skips some rows and, when a limit is given, keeps as many as it says. -/
structure Query.IsPaged (q : Query) (skip : Nat) (limit : Option Nat) : Prop where
  skip : q.skip = .int skip
  limit : q.limit = limitValue limit

theorem turns_skip (n : Nat) (rows : List Value) :
    Turns search (Pipeline.skipStage? (.int n)).toList rows (rows.drop n) := by
  unfold Pipeline.skipStage?
  cases n with
  | zero => exact .nil rows
  | succ n => exact .one (Encoding.reaches_skip _) (Store.pagedStage?_skip (n + 1) rows)

theorem turns_limit (limit : Option Nat) (rows : List Value) :
    Turns search (Pipeline.limitStage? (limitValue limit)).toList rows
      (limit.elim rows rows.take) := by
  cases limit with
  | none => exact .nil rows
  | some n => exact .one (Encoding.reaches_limit _) (Store.pagedStage?_limit n rows)

theorem turns_keys (keys rows : List Value) :
    Turns search (if keys.isEmpty then none
      else some (Stage.including (keys.map FieldName.wire))).toList rows
        (rows.map (shape keys)) := by
  cases keys with
  | nil =>
    have hsame : rows.map (shape []) = rows := List.map_id rows
    rw [hsame]
    exact .nil rows
  | cons key keys => exact .one (Encoding.reaches_including _) (Store.pagedStage?_keep _ rows)

namespace Draft

/-- The rows of a collection as the orderings of a query sort them; none when the store has to
    compare two that cannot be compared. -/
def sorted? (d : Draft) (rows : List Value) : Option (List Value) :=
  Store.orderBy? ((Encoding.sortFields (Order.storedColumns d.query.orders)).map
    fun (k, v) => (.text k, v)) rows

theorem turns_sort {rows : List Value} (h : d.sorted? rows = some sorted) :
    Turns search (Pipeline.sortStage? d.query.orders).toList rows sorted := by
  cases hstage : Pipeline.sortStage? d.query.orders with
  | some s =>
    exact .one (Encoding.reaches_storedSort hstage) ((Store.pagedStage?_sort _ rows).trans h)
  | none =>
    have hnone : d.query.orders = [] := by
      unfold Pipeline.sortStage? at hstage
      split at hstage
      · exact List.isEmpty_iff.mp ‹_›
      · cases hstage
    rw [sorted?, hnone] at h
    cases h
    exact .nil _

theorem Leaves.turns (h : d.Leaves search docs matched) :
    ∃ first, d.filterStage? = .ok first ∧ Turns search first.toList docs matched := by
  cases h with
  | all h => exact ⟨none, h, .nil docs⟩
  | selected h hencoded =>
    exact ⟨_, h, .one (Encoding.reaches_filter hencoded) (Store.pagedStage?_filter _ docs)⟩

theorem stages_of_isPaged {first : Option Stage} (hfirst : d.filterStage? = .ok first)
    {skip : Nat} {limit : Option Nat} (hpage : d.query.IsPaged skip limit) :
    d.stages = .ok ([first, Pipeline.sortStage? d.query.orders, Pipeline.skipStage? (.int skip),
      Pipeline.limitStage? (limitValue limit),
      if d.query.keys.isEmpty then none
        else some (.including (d.query.keys.map FieldName.wire))].filterMap id) := by
  have hcounts : Pipeline.checkCounts
      ⟨d.orderValue, .int skip, limitValue limit, .list d.query.keys⟩ = .ok () := by
    refine Pipeline.checkCounts_eq_ok_iff.mpr ⟨Pipeline.isNegative_natCast skip, ?_⟩
    cases limit with
    | none => rfl
    | some n => exact Pipeline.isNegative_natCast n
  rw [stages, hpage.skip, hpage.limit, Pipeline.stages, hcounts, hfirst,
    sortStageOf?_orderValue, projectStage?_list]
  rfl

/-- The stages of a query make the rows of its page of the documents of a collection. -/
theorem Leaves.turns_stages (h : d.Leaves search docs matched)
    (hsorted : d.sorted? matched = some sorted) {skip : Nat} {limit : Option Nat}
    (hpage : d.query.IsPaged skip limit) : ∃ stages, d.stages = .ok stages ∧
      Turns search stages docs ((page skip limit sorted).map (shape d.query.keys)) := by
  obtain ⟨first, hfirst, hmatched⟩ := h.turns
  refine ⟨_, stages_of_isPaged hfirst hpage, hmatched.cons ((turns_sort hsorted).cons
    ((turns_skip skip sorted).cons ((turns_limit limit _).cons ((turns_keys _ _).cons ?_))))⟩
  exact .nil _

/-! ## Runs over stored documents -/

/-- Over the documents of a collection, an operation runs to an outcome: whatever the database
    answers, the operation sends one pipeline and nothing else; the pipeline leaves some rows in the
    store, and when these are the answer, the operation ends with that outcome. -/
def RunsTo {α : Type} (search : Value → Bool → Value → Bool) (docs : List Value) (d : Draft)
    (operation : Gateway → Run Gateway α) (outcome : Except Error α) : Prop :=
  ∃ stages rows, Store.pagedRun? search docs stages = some rows ∧
    (∀ g db answer, g.WillAnswer db answer →
      (operation g).calls = [.query db.name d.query.className stages]) ∧
    ∀ g db, g.WillAnswer db rows → (operation g).outcome = outcome

/-- There is one outcome at most. -/
theorem RunsTo.unique {α : Type} {operation : Gateway → Run Gateway α} {o o' : Except Error α}
    (h : d.RunsTo search docs operation o) (h' : d.RunsTo search docs operation o') : o = o' := by
  obtain ⟨stages, rows, hrun, hcalls, houtcome⟩ := h
  obtain ⟨stages', rows', hrun', hcalls', houtcome'⟩ := h'
  obtain ⟨g, db, hanswer⟩ := Gateway.exists_willAnswer rows
  cases (hcalls g db rows hanswer).symm.trans (hcalls' g db rows hanswer)
  cases hrun.symm.trans hrun'
  exact (houtcome g db hanswer).symm.trans (houtcome' g db hanswer)

theorem runsTo_of_turns {stages : List Stage} {rows : List Value}
    (h : Turns search stages docs rows) {pipeline : Except Error (List Value)}
    (hpipeline : pipeline = Stage.toPipeline stages) (hmode : mode ≠ .remote) :
    d.RunsTo search docs (fun g => d.send g pipeline mode)
      (rows.mapM fun row => toWire row .null) := by
  obtain ⟨encoded, hreaches, hrun⟩ := h
  obtain ⟨written, hwritten, hencoded⟩ := Encoding.pipeline_of_reaches hreaches
  rw [hpipeline, hwritten]
  exact ⟨encoded, rows, hrun,
    fun g db answer hanswer =>
      (Gateway.run_of_willAnswer hanswer hencoded hmode d.query.className).2,
    fun g db hanswer => (Gateway.run_of_willAnswer hanswer hencoded hmode d.query.className).1⟩

/-- An operation that reads the rows of another one. -/
theorem RunsTo.read {α β : Type} {operation : Gateway → Run Gateway α} {outcome : Except Error α}
    (h : d.RunsTo search docs operation outcome) (f : α → Except Error β) :
    d.RunsTo search docs (fun g => (operation g).read f) (outcome.bind f) := by
  obtain ⟨stages, rows, hrun, hcalls, houtcome⟩ := h
  exact ⟨stages, rows, hrun, hcalls, fun g db hanswer =>
    congrArg (·.bind f) (houtcome g db hanswer)⟩

/-- The rows as a query with some keys shows them. -/
def shown (keys rows : List Value) : Except Error (List Value) :=
  (rows.map (shape keys)).mapM fun row => toWire row .null

/-- The rows of a query are those of its page. -/
theorem runsTo_results (h : d.Leaves search docs matched) (hsorted : d.sorted? matched = some sorted)
    {skip : Nat} {limit : Option Nat} (hpage : d.query.IsPaged skip limit)
    (hmode : mode ≠ .remote) :
    d.RunsTo search docs (fun g => d.results g mode)
      (shown d.query.keys (page skip limit sorted)) := by
  obtain ⟨stages, hstages, hturns⟩ := h.turns_stages hsorted hpage
  refine runsTo_of_turns hturns ?_ hmode
  rw [pipeline, hstages]
  rfl

/-- The first row is that of the page of one row. -/
theorem runsTo_first (h : d.Leaves search docs matched) (hsorted : d.sorted? matched = some sorted)
    {skip : Nat} {limit : Option Nat} (hpage : d.query.IsPaged skip limit)
    (hmode : mode ≠ .remote) :
    d.RunsTo search docs (fun g => d.first g mode)
      ((shown d.query.keys (page skip (some 1) sorted)).bind Rows.first) := by
  obtain ⟨first, hfirst, -⟩ := h.turns
  obtain ⟨f, hf, -⟩ := exists_of_bind_eq_ok hfirst
  have hone : (d.withLimit (.int 1)).Leaves search docs matched := by
    cases h with
    | all h => exact .all h
    | selected h hencoded => exact .selected h hencoded
  have hpageOne : (d.withLimit (.int 1)).query.IsPaged skip (some 1) := ⟨hpage.skip, rfl⟩
  have hresults := (runsTo_results hone hsorted hpageOne hmode).read Rows.first
  have hoperation : (fun g => d.first g mode) = fun g =>
      ((d.withLimit (.int 1)).results g mode).read Rows.first := by
    funext g
    rw [Draft.first, hf]
  rw [hoperation]
  exact hresults

/-- The count of a query is the number of documents that its filter leaves. -/
theorem runsTo_count (h : d.Leaves search docs matched) (hmode : mode ≠ .remote) :
    d.RunsTo search docs (fun g => d.count g mode) (.ok (.int matched.length)) := by
  obtain ⟨first, hfirst, hmatched⟩ := h.turns
  have hcounted : Turns search (first.toList ++ [.count (.text "count")]) docs
      (countRows "count" matched) :=
    hmatched.append (.one (Encoding.reaches_count "count") (Store.pagedStage?_count "count" _))
  have hpipeline : d.countPipeline =
      Stage.toPipeline (first.toList ++ [.count (.text "count")]) := by
    rw [countPipeline, Pipeline.counting, hfirst]
    rfl
  have hruns := (runsTo_of_turns (d := d) hcounted hpipeline hmode).read Rows.count
  rw [mapM_countRows ⟨by decide, by decide, by decide⟩] at hruns
  exact count_countRows matched ▸ hruns

/-! ## Rows that are shown -/

theorem page_one (skip : Nat) {limit : Option Nat} (hlimit : ∀ n ∈ limit, 1 ≤ n)
    (rows : List Value) : page skip (some 1) rows = (page skip limit rows).take 1 := by
  cases limit with
  | none => rfl
  | some n =>
    show (rows.drop skip).take 1 = ((rows.drop skip).take n).take 1
    rw [List.take_take, Nat.min_eq_left (hlimit n rfl)]

theorem mem_of_mem_page {skip : Nat} {limit : Option Nat} {rows : List Value} {row : Value}
    (h : row ∈ page skip limit rows) : row ∈ rows := by
  cases limit with
  | none => exact List.mem_of_mem_drop h
  | some n => exact List.mem_of_mem_drop (List.mem_of_mem_take h)

theorem shown_take {keys rows shownRows : List Value} (h : shown keys rows = .ok shownRows)
    (n : Nat) : shown keys (rows.take n) = .ok (shownRows.take n) := by
  refine mapM_eq_ok_iff.mpr ?_
  rw [List.map_take]
  exact List.forall₂_take n (mapM_eq_ok_iff.mp h)

theorem shape_isMap {row : Value} (h : row.isMap = true) (keys : List Value) :
    (shape keys row).isMap = true := by
  unfold shape
  split
  · exact h
  · rfl

/-- A document that is shown is not null. -/
theorem ne_null_of_shown {keys rows shownRows : List Value} (hrows : ∀ row ∈ rows, row.isMap = true)
    (h : shown keys rows = .ok shownRows) : ∀ w ∈ shownRows, w ≠ .null := by
  refine forall_mem_of_mapM_eq_ok h (List.forall_mem_map.mpr fun row hrow w hw => ?_)
  have hmap := shape_isMap (hrows row hrow) keys
  cases hshape : shape keys row with
  | map es =>
    rw [hshape] at hw
    obtain ⟨fields, -, rfl⟩ := exists_of_map_eq_ok hw
    exact nofun
  | _ =>
    rw [hshape] at hmap
    cases hmap

theorem isTimely_shape {row : Value} (h : row.isTimely = true) (keys : List Value) :
    (shape keys row).isTimely = true := by
  unfold shape
  split
  · exact h
  · exact Store.isTimely_kept h _

/-- Rows whose points in time all have UTC readings can be shown. -/
theorem exists_shown {rows : List Value} (h : ∀ row ∈ rows, row.isTimely = true)
    (keys : List Value) : ∃ shownRows, shown keys rows = .ok shownRows :=
  exists_mapM_eq_ok (List.forall_mem_map.mpr fun row hrow =>
    Document.exists_toWire (isTimely_shape (h row hrow) keys))

/-! ## What is left of the query -/

/-- The query with nothing skipped and without a limit. -/
def withoutPage (d : Draft) : Draft :=
  { d with query := { d.query with skip := .int 0, limit := .null } }

/-- The first row is read through a copy of the query, in a store where the copy has cells of its
    own. The copy asks for what the query asks for, no cell that was there is touched, and so the
    query stands for the same filter afterwards. -/
structure ReadsThrough (d : Draft) (mode : Mode) (copy : Draft) : Prop where
  cloned : d.clone = .ok copy
  query : copy.query = { d.query with filter := copy.query.filter }
  own : d.filters.cells.length ≤ copy.query.filter
  cells : ∀ id < d.filters.cells.length, copy.filters.get id = d.filters.get id
  filter : (⟨copy.filters, d.query⟩ : Draft).filter = d.filter
  first : ∀ g, d.first g mode = ((copy.withLimit (.int 1)).results g mode).read Rows.first

/-- A copy whose filter stands for the same gives the same rows within any limit. -/
theorem results_withLimit_congr {t : FilterStore} {id : FilterId}
    (hfilter : t.resolve id = d.filter) (limit : Value) (g : Gateway) (mode : Mode) :
    ((⟨t, { d.query with filter := id }⟩ : Draft).withLimit limit).results g mode =
      (d.withLimit limit).results g mode := by
  have hstage : ((⟨t, { d.query with filter := id }⟩ : Draft).withLimit limit).filterStage? =
      (d.withLimit limit).filterStage? :=
    congrArg (· >>= Pipeline.filterStage?) hfilter
  have hpipeline : ((⟨t, { d.query with filter := id }⟩ : Draft).withLimit limit).pipeline =
      (d.withLimit limit).pipeline := by
    rw [pipeline, pipeline, stages, stages, hstage]
    rfl
  rw [results, results, hpipeline]
  rfl

theorem exists_readsThrough (hclosed : d.filters.IsClosed)
    (hstored : d.query.filter < d.filters.cells.length) {f : Filter} (hf : d.filter = .ok f)
    (mode : Mode) : ∃ copy, d.ReadsThrough mode copy := by
  have hgrows := (FilterStore.grows_alloc f d.filters).1
  have hcopy := FilterStore.isCopy_alloc f d.filters
  have hcloned : d.clone = .ok ⟨(FilterStore.alloc f d.filters).2,
      { d.query with filter := (FilterStore.alloc f d.filters).1 }⟩ := by
    have hresolve : d.filters.resolve d.query.filter = .ok f := hf
    rw [clone, FilterStore.copy, hresolve]
    rfl
  refine ⟨_, hcloned, rfl, hcopy.le, fun id hid => hgrows.get_eq hid, ?_, fun g => ?_⟩
  · exact (hgrows.resolve_eq_ok hclosed hstored hf).trans hf.symm
  · have hfilter : (FilterStore.alloc f d.filters).2.resolve (FilterStore.alloc f d.filters).1 =
        d.filter := by
      rw [hf]
      exact FilterStore.resolve_eq_ok_iff.mpr
        (FilterStore.resolve?_mono (Nat.le_succ _) hcopy.resolve?)
    rw [Draft.first, hf, results_withLimit_congr hfilter]

/-! ## Agreement -/

/-- Over the documents of a collection a query has some rows, and some when nothing is skipped and
    without a limit. Its first row is the head of its rows, and there is none exactly when there are
    no rows. Its count is the number of all. The rows are there when the points in time of the
    documents all have UTC readings. -/
structure PagesAgree (search : Value → Bool → Value → Bool) (docs : List Value) (d : Draft)
    (mode : Mode) (rows all : Except Error (List Value)) (total : Nat) : Prop where
  results : d.RunsTo search docs (fun g => d.results g mode) rows
  allResults : d.withoutPage.RunsTo search docs (fun g => d.withoutPage.results g mode) all
  first : ∃ first, d.RunsTo search docs (fun g => d.first g mode) first ∧ ∀ ws, rows = .ok ws →
    first = .ok (ws.head?.getD .null) ∧ (first = .ok .null ↔ ws = [])
  count : d.RunsTo search docs (fun g => d.count g mode) (.ok (.int total))
  counted : ∀ ws, all = .ok ws → total = ws.length
  readable : (∀ doc ∈ docs, doc.isTimely = true) → (∃ ws, rows = .ok ws) ∧ ∃ ws, all = .ok ws

/-- The head of a page that is shown is the one row of the page of one row. -/
theorem first_of_shown {keys rows : List Value} (hrows : ∀ row ∈ rows, row.isMap = true)
    {skip : Nat} {limit : Option Nat} (hlimit : ∀ n ∈ limit, 1 ≤ n) {ws : List Value}
    (h : shown keys (page skip limit rows) = .ok ws) :
    (shown keys (page skip (some 1) rows)).bind Rows.first = .ok (ws.head?.getD .null) ∧
      ((shown keys (page skip (some 1) rows)).bind Rows.first = .ok .null ↔ ws = []) := by
  have hfirst := congrArg (·.bind Rows.first) (shown_take h 1)
  have hnull := ne_null_of_shown (fun row hrow => hrows row (mem_of_mem_page hrow)) h
  rw [page_one skip hlimit, hfirst]
  cases ws with
  | nil => exact ⟨rfl, iff_of_true rfl rfl⟩
  | cons w ws =>
    refine ⟨rfl, iff_of_false (fun heq => ?_) (List.cons_ne_nil w ws)⟩
    exact hnull w List.mem_cons_self (Except.ok.inj heq)

theorem pagesAgree (hdocs : ∀ doc ∈ docs, doc.isMap = true) (h : d.Leaves search docs matched)
    (hsorted : d.sorted? matched = some sorted) {skip : Nat} {limit : Option Nat}
    (hpage : d.query.IsPaged skip limit) (hlimit : ∀ n ∈ limit, 1 ≤ n) (hmode : mode ≠ .remote) :
    d.PagesAgree search docs mode (shown d.query.keys (page skip limit sorted))
      (shown d.query.keys sorted) matched.length := by
  have hperm := Store.orderBy?_perm hsorted
  have hin : ∀ row ∈ sorted, row ∈ docs := fun row hrow => h.sublist.subset (hperm.subset hrow)
  exact {
    results := runsTo_results h hsorted hpage hmode
    allResults := by
      have hleaves : d.withoutPage.Leaves search docs matched := by
        cases h with
        | all h => exact .all h
        | selected h hencoded => exact .selected h hencoded
      have hpage : d.withoutPage.query.IsPaged 0 none := ⟨rfl, rfl⟩
      exact runsTo_results hleaves hsorted hpage hmode
    first := ⟨_, runsTo_first h hsorted hpage hmode, fun ws hws =>
      first_of_shown (fun row hrow => hdocs row (hin row hrow)) hlimit hws⟩
    count := runsTo_count h hmode
    counted := fun ws hws => by
      have hlength := (mapM_eq_ok_iff.mp hws).length_eq
      rw [← hlength, List.length_map, hperm.length_eq]
    readable := fun htimely =>
      ⟨exists_shown (fun row hrow => htimely row (hin row (mem_of_mem_page hrow))) _,
        exists_shown (fun row hrow => htimely row (hin row hrow)) _⟩ }

/-- Over stored documents that the filter of a query can be held against and its orderings can
    sort, its rows are those of its page of the sorted documents, and its first row, its rows and
    its count agree. None of the three changes the query: the count and the rows are read from it
    as it stands, and the first row through a copy. -/
theorem first_results_count_agree (hclosed : d.filters.IsClosed)
    (hstored : d.query.filter < d.filters.cells.length)
    (hdocs : ∀ doc ∈ docs, doc.isMap = true) (h : d.Leaves search docs matched)
    (hsorted : d.sorted? matched = some sorted) {skip : Nat} {limit : Option Nat}
    (hpage : d.query.IsPaged skip limit) (hlimit : ∀ n ∈ limit, 1 ≤ n) (hmode : mode ≠ .remote) :
    d.PagesAgree search docs mode (shown d.query.keys (page skip limit sorted))
      (shown d.query.keys sorted) matched.length ∧ ∃ copy, d.ReadsThrough mode copy := by
  obtain ⟨first, hfirst, -⟩ := h.turns
  obtain ⟨f, hf, -⟩ := exists_of_bind_eq_ok hfirst
  exact ⟨pagesAgree hdocs h hsorted hpage hlimit hmode,
    exists_readsThrough hclosed hstored hf mode⟩

/-- The second and the third most played song, of which only the plays are kept. -/
theorem first_results_count_agree_songs :
    let song : String → Int → Value := fun id plays =>
      .object [("_id", .text id), ("plays", .int plays)]
    let d : Draft := ⟨⟨[⟨[⟨"plays", .greater, .int 0⟩], []⟩]⟩,
      { className := .text "Song", filter := 0, orders := [⟨"plays", .descending⟩],
        skip := .int 1, limit := .int 2, keys := [.text "plays"] }⟩
    let docs := [song "a" 3, song "b" 0, song "c" 7, song "d" 5]
    let matched := [song "a" 3, song "c" 7, song "d" 5]
    d.Leaves (fun _ _ _ => false) docs matched ∧
      d.sorted? matched = some [song "c" 7, song "d" 5, song "a" 3] ∧
      d.PagesAgree (fun _ _ _ => false) docs .auto
        (shown [.text "plays"] [song "d" 5, song "a" 3])
        (shown [.text "plays"] [song "c" 7, song "d" 5, song "a" 3]) 3 ∧
      ∃ copy, d.ReadsThrough .auto copy := by
  intro song d docs matched
  let body : Value := .object [("plays", .object [("$gt", .int 0)])]
  have hmatched : (docs.filter fun doc => Selection.selects (fun _ _ _ => false) doc body) =
      matched := rfl
  have hleaves : d.Leaves (fun _ _ _ => false) docs matched := by
    have hfirst : d.filterStage? = .ok (some (.filter body)) := rfl
    rw [← hmatched]
    exact .selected hfirst rfl
  have hsorted : d.sorted? matched = some [song "c" 7, song "d" 5, song "a" 3] := by
    show Store.orderBy? [(.text "plays", .int (-1))] matched = _
    simp only [matched, song]
    cbv
  have hclosed : d.filters.IsClosed := by
    intro c hc g hg
    obtain rfl := List.mem_singleton.mp hc
    cases hg
  have hpage : d.query.IsPaged 1 (some 2) := ⟨rfl, rfl⟩
  exact ⟨hleaves, hsorted, first_results_count_agree hclosed (by decide) (by decide) hleaves
    hsorted hpage (by simp) (by decide)⟩

end Draft

end DocQuery
