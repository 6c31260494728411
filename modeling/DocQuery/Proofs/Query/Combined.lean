-- SUMMARY: Which documents a query made of several selects, compared with those that the queries select.
import DocQuery.Proofs.Pipeline
import DocQuery.Proofs.Selection.Filter
import DocQuery.Query.Combined

/-!
# Combined queries

A query for any of several takes over copies of their filters as one group of alternatives.
A filter without conditions is no alternative: it is left out, as in every group. So the
combined query selects what the queries with conditions select, and everything only if none
of them has a condition.
-/

namespace DocQuery

open Selection

variable (search : Value → Bool → Value → Bool)

/-! ## Selection by queries -/

namespace Draft

/-- The pipeline of a query filters a document in: its match stage selects the document, or it
    has none. -/
def Selects (d : Draft) (doc : Value) : Prop :=
  ∃ stage?, d.filterStage? = .ok stage? ∧
    ∀ body, stage? = some (.filter body) → selects search doc body = true

theorem filterStage?_of_isEmpty {d : Draft} {f : Filter} (hf : d.filter = .ok f)
    (hempty : f.isEmpty = true) : d.filterStage? = .ok none := by
  rw [filterStage?, hf]
  show Pipeline.filterStage? f = _
  rw [Pipeline.filterStage?, if_pos hempty]

theorem filterStage?_of_compile {d : Draft} {f : Filter} (hf : d.filter = .ok f)
    (hempty : f.isEmpty = false) {body : MatchBody} (hbody : f.compile = .ok body) :
    d.filterStage? = .ok (some (.filter (.object body))) := by
  rw [filterStage?, hf]
  show Pipeline.filterStage? f = _
  rw [Pipeline.filterStage?, hempty, if_neg Bool.false_ne_true, hbody]
  rfl

/-- A query with conditions has a body when it has a match stage at all. -/
theorem exists_compile_of_filterStage? {d : Draft} {f : Filter} (hf : d.filter = .ok f)
    (hempty : f.isEmpty = false) {stage? : Option Stage} (h : d.filterStage? = .ok stage?) :
    ∃ body, f.compile = .ok body := by
  rw [filterStage?, hf] at h
  replace h : Pipeline.filterStage? f = .ok stage? := h
  rw [Pipeline.filterStage?, hempty, if_neg Bool.false_ne_true] at h
  obtain ⟨body, hbody, _⟩ := exists_of_map_eq_ok h
  exact ⟨body, hbody⟩

theorem selects_iff {d : Draft} {f : Filter} (hf : d.filter = .ok f) (hempty : f.isEmpty = false)
    {body : MatchBody} (hbody : f.compile = .ok body) (doc : Value) :
    d.Selects search doc ↔ selects search doc (.object body) = true := by
  have hstage := filterStage?_of_compile hf hempty hbody
  constructor
  · rintro ⟨stage?, hstage', hselects⟩
    rw [hstage] at hstage'
    exact hselects _ (Except.ok.inj hstage').symm
  · intro hselects
    refine ⟨_, hstage, fun v hv => ?_⟩
    cases hv
    exact hselects

end Draft

namespace Filter

theorem forall₂_of_compileGroup {fs : List Filter} {vs : List Value}
    (h : List.Forall₂ (fun f v => ∃ body, f.compile = .ok body ∧ v = .object body) fs vs) :
    compileGroup fs = .ok vs := by
  induction h with
  | nil => rfl
  | cons hhead _ ih =>
    obtain ⟨body, hbody, rfl⟩ := hhead
    rw [compileGroup, hbody, ih]
    rfl

/-- The filter with nothing but one group of alternatives, if there are any. -/
def anyOf (fs : List Filter) : Filter :=
  .mk [] (if fs.isEmpty then [] else [fs])

theorem isEmpty_anyOf (fs : List Filter) : (anyOf fs).isEmpty = fs.isEmpty := by
  cases fs <;> rfl

/-- The body of alternatives selects what the body of one of them selects. -/
theorem selects_anyOf {fs : List Filter} (hne : fs ≠ [])
    (h : ∀ f ∈ fs, ∃ body, f.compile = .ok body) : ∃ body, (anyOf fs).compile = .ok body ∧
      ∀ doc : Value, selects search doc (.object body) = true ↔
        ∃ f ∈ fs, ∃ b, f.compile = .ok b ∧ selects search doc (.object b) = true := by
  obtain ⟨vs, hvs⟩ : ∃ vs, List.Forall₂
      (fun f v => ∃ body, f.compile = .ok body ∧ v = Value.object body) fs vs := by
    clear hne
    induction fs with
    | nil => exact ⟨[], .nil⟩
    | cons f fs ih =>
      obtain ⟨hf, hfs⟩ := List.forall_mem_cons.mp h
      obtain ⟨body, hbody⟩ := hf
      obtain ⟨vs, hvs⟩ := ih hfs
      exact ⟨.object body :: vs, .cons ⟨body, hbody, rfl⟩ hvs⟩
  have hfs : fs.isEmpty = false := List.isEmpty_eq_false_iff.mpr hne
  have hcompile : (anyOf fs).compile = .ok (withGroups (conjunction []) [vs]) := by
    rw [anyOf, hfs, if_neg Bool.false_ne_true, compile, compileGroups,
      forall₂_of_compileGroup hvs]
    rfl
  refine ⟨_, hcompile, fun doc => ?_⟩
  have hgroups : ∀ g ∈ [vs], g ≠ [] := by
    intro g hg
    obtain rfl := List.mem_singleton.mp hg
    rintro rfl
    cases hvs
    exact hne rfl
  rw [selects_withGroups search (by intro key hkey; cases hkey) hgroups]
  have hempty : selects search doc (.object (conjunction [])) = true := rfl
  simp only [hempty, true_and, List.forall_mem_singleton]
  exact exists_selected_iff search hvs doc

end Filter

/-! ## Any of several queries -/

namespace Draft

open FilterStore

theorem combine_queries {className : String} {qs : List Query} (hne : qs ≠ [])
    (hclass : ∀ q ∈ qs, q.className = .text className) :
    Operand.combine (qs.map .query) = .ok (.text className, qs) := by
  have hgiven : (qs.map Operand.query).filter Operand.isGiven = qs.map .query :=
    List.filter_eq_self.mpr fun o ho => by
      obtain ⟨q, _, rfl⟩ := List.mem_map.mp ho
      rfl
  have hqueries : ∀ qs : List Query, (∀ q ∈ qs, q.className = .text className) →
      Operand.queriesFor (.text className) (qs.map .query) = .ok qs := by
    intro qs hqs
    induction qs with
    | nil => rfl
    | cons q qs ih =>
      obtain ⟨hq, hqs⟩ := List.forall_mem_cons.mp hqs
      have hsame : (q.className == .text className) = true := by
        rw [hq, beq_text, beq_self_eq_true]
      rw [List.map_cons, Operand.queriesFor, if_pos hsame, ih hqs]
      rfl
  unfold Operand.combine
  rw [hgiven]
  obtain ⟨q, qs, rfl⟩ := List.exists_cons_of_ne_nil hne
  have hq := hclass q List.mem_cons_self
  show (Operand.queriesFor q.className ((q :: qs).map .query)).map _ = _
  rw [hq, hqueries (q :: qs) hclass]
  rfl

/-- A filter without conditions stands, after filters have been offered to it, for the choice
    among those that have some. -/
theorem resolve_addGroup {t : FilterStore} {own : FilterId} (hown : t.IsOwn own)
    (hcell : t.get own = .empty) {news : List FilterId} {fs : List Filter}
    (hnews : List.Forall₂ (fun new f => new ≠ own ∧ t.resolve? t.cells.length new = some f) news
      fs) : (t.addGroup own news).resolve own = .ok (.anyOf (fs.filter (!·.isEmpty))) := by
  have hgroup : List.Forall₂ (fun new f => new ≠ own ∧ t.resolve? t.cells.length new = some f)
      (news.filter fun a => !(t.get a).isEmpty) (fs.filter (!·.isEmpty)) := by
    refine List.rel_filter (fun new f hnew => ?_) hnews
    show (!(t.get new).isEmpty) = true ↔ (!f.isEmpty) = true
    rw [isEmpty_of_resolve? hnew.2]
  unfold addGroup
  -- only the kept alternatives matter from here on
  generalize news.filter (fun a => !(t.get a).isEmpty) = group at hgroup
  generalize fs.filter (!·.isEmpty) = fs at hgroup
  rw [resolve_eq_ok_iff, resolve?]
  cases hgroup with
  | nil =>
    dsimp only
    rw [hcell]
    rfl
  | @cons new f group fs hhead hrest =>
    dsimp only
    have hall : List.Forall₂ (fun new f => new ≠ own ∧ t.resolve? t.cells.length new = some f)
        (new :: group) (f :: fs) := .cons hhead hrest
    have hmembers : (new :: group).mapM ((t.modify own fun cell =>
        { cell with groups := cell.groups ++ [new :: group] }).resolve? t.cells.length) =
          some (f :: fs) := by
      refine mapM_eq_some_iff.mpr (hall.imp fun a f' ha => ?_)
      rw [resolve?_modify hown.unshared _ _ ha.1, ha.2]
    rw [get_modify_self hown.lt, hcell, length_modify]
    simp only [FilterCell.empty, List.nil_append, List.mapM_cons, List.mapM_nil, hmembers]
    rfl

/-- The filter of a query for any of several is made of those filters that have conditions. -/
theorem exists_anyOf {filters : FilterStore} (hclosed : filters.IsClosed) {className : String}
    (hname : className ≠ "") {qs : List Query} (hne : qs ≠ [])
    (hclass : ∀ q ∈ qs, q.className = .text className) {fs : List Filter}
    (hqs : List.Forall₂ (fun q f => q.filter < filters.cells.length ∧
      filters.resolve q.filter = .ok f) qs fs) : ∃ d, anyOf filters (qs.map .query) = .ok d ∧
      d.filter = .ok (.anyOf (fs.filter (!·.isEmpty))) := by
  have hpush := grows_push_empty filters
  have hpushed := hpush.isClosed hclosed
  have hown := isOwn_push_empty hclosed
  have hkept : List.Forall₂ (fun id f => id < (filters.push .empty).2.cells.length ∧
      (filters.push .empty).2.resolve id = .ok f) (qs.map (·.filter)) fs := by
    refine List.forall₂_map_left_iff.mpr (hqs.imp fun q f hq => ?_)
    exact ⟨Nat.lt_of_lt_of_le hq.1 hpush.length_le, hpush.resolve_eq_ok hclosed hq.1 hq.2⟩
  obtain ⟨news, t, hcopies, hgrows, hnews⟩ := exists_copyAll hpushed hkept
  have hcell : t.get filters.cells.length = .empty := by
    rw [hgrows.get_eq hown.lt]
    simp [FilterStore.get, FilterStore.push]
  have hothers : List.Forall₂ (fun new f => new ≠ filters.cells.length ∧
      t.resolve? t.cells.length new = some f) news fs :=
    hnews.imp fun new f hnew => ⟨Nat.ne_of_gt (Nat.lt_of_lt_of_le hown.lt hnew.le), hnew.resolve?⟩
  have hmake : make filters (.text className) = .ok ⟨(filters.push .empty).2,
      { className := .text className, filter := filters.cells.length }⟩ := by
    have hgiven : (Value.text className).isGiven = true := by
      simpa [Value.isGiven] using hname
    rw [make, if_pos hgiven]
    rfl
  refine ⟨⟨t.addGroup filters.cells.length news,
    { className := .text className, filter := filters.cells.length }⟩, ?_, ?_⟩
  · rw [anyOf, combine_queries hne hclass]
    show (make filters (.text className) >>= fun d =>
      copyAll (qs.map (·.filter)) d.filters >>= _) = _
    rw [hmake]
    show (copyAll (qs.map (·.filter)) (filters.push .empty).2 >>= _) = _
    rw [hcopies]
    rfl
  · exact resolve_addGroup (hown.grows hgrows) hcell hothers

/-- The filter of a query, with what is needed for its match stage. -/
structure StandsFor (filters : FilterStore) (q : Query) (f : Filter) : Prop where
  lt : q.filter < filters.cells.length
  resolve : filters.resolve q.filter = .ok f
  compiles : f.isEmpty = false → ∃ body, f.compile = .ok body

theorem exists_filters {filters : FilterStore} {qs : List Query}
    (hstored : ∀ q ∈ qs, q.filter < filters.cells.length)
    (hcompiles : ∀ q ∈ qs, ∃ stage?, (⟨filters, q⟩ : Draft).filterStage? = .ok stage?) :
    ∃ fs, List.Forall₂ (StandsFor filters) qs fs := by
  induction qs with
  | nil => exact ⟨[], .nil⟩
  | cons q qs ih =>
    obtain ⟨hq, hqs⟩ := List.forall_mem_cons.mp hcompiles
    obtain ⟨hin, hins⟩ := List.forall_mem_cons.mp hstored
    obtain ⟨fs, hfs⟩ := ih hins hqs
    obtain ⟨stage?, hstage⟩ := hq
    obtain ⟨f, hf, _⟩ := exists_of_bind_eq_ok hstage
    have hbody (hempty : f.isEmpty = false) := exists_compile_of_filterStage? hf hempty hstage
    exact ⟨f :: fs, .cons ⟨hin, hf, hbody⟩ hfs⟩

theorem StandsFor.isEmpty {filters : FilterStore} {q : Query} {f : Filter}
    (h : StandsFor filters q f) : f.isEmpty = (filters.get q.filter).isEmpty :=
  isEmpty_of_resolve? (resolve_eq_ok_iff.mp h.resolve)

/-- A query with conditions selects what its filter's body does. -/
theorem StandsFor.selects_iff {filters : FilterStore} {q : Query} {f : Filter}
    (h : StandsFor filters q f) (doc : Value) : ((filters.get q.filter).isEmpty = false ∧
      (⟨filters, q⟩ : Draft).Selects search doc) ↔ f.isEmpty = false ∧ ∃ body,
        f.compile = .ok body ∧ selects search doc (.object body) = true := by
  rw [← h.isEmpty]
  refine and_congr_right fun hempty => ?_
  obtain ⟨body, hbody⟩ := h.compiles hempty
  have hq : (⟨filters, q⟩ : Draft).filter = .ok f := h.resolve
  rw [Draft.selects_iff search hq hempty hbody]
  refine ⟨fun hsel => ⟨body, hbody, hsel⟩, ?_⟩
  rintro ⟨b, hb, hsel⟩
  rw [hbody] at hb
  cases hb
  exact hsel

/-- A query for any of several selects what the queries with conditions select, and everything
    if none of them has a condition. -/
theorem selects_anyOf_iff {filters : FilterStore} (hclosed : filters.IsClosed) {className : String}
    (hname : className ≠ "") {qs : List Query} (hne : qs ≠ [])
    (hclass : ∀ q ∈ qs, q.className = .text className)
    (hstored : ∀ q ∈ qs, q.filter < filters.cells.length)
    (hcompiles : ∀ q ∈ qs, ∃ stage?, (⟨filters, q⟩ : Draft).filterStage? = .ok stage?) :
    ∃ d, anyOf filters (qs.map .query) = .ok d ∧ (∃ stage?, d.filterStage? = .ok stage?) ∧
      ∀ doc : Value, d.Selects search doc ↔
        (∃ q ∈ qs, (filters.get q.filter).isEmpty = false ∧
          (⟨filters, q⟩ : Draft).Selects search doc) ∨
        ∀ q ∈ qs, (filters.get q.filter).isEmpty = true := by
  obtain ⟨fs, hfs⟩ := exists_filters hstored hcompiles
  obtain ⟨d, hd, hfilter⟩ := exists_anyOf hclosed hname hne hclass
    (hfs.imp fun q f hq => ⟨hq.lt, hq.resolve⟩)
  have hnone : (∀ q ∈ qs, (filters.get q.filter).isEmpty = true) ↔
      fs.filter (!·.isEmpty) = [] := by
    rw [List.filter_eq_nil_iff]
    refine forall_mem_iff_of_forall₂ hfs fun q f hq => ?_
    simp [hq.isEmpty]
  have hsome : ∀ doc : Value, (∃ q ∈ qs, (filters.get q.filter).isEmpty = false ∧
      (⟨filters, q⟩ : Draft).Selects search doc) ↔ ∃ f ∈ fs.filter (!·.isEmpty), ∃ body,
        f.compile = .ok body ∧ selects search doc (.object body) = true := by
    intro doc
    rw [exists_mem_iff_of_forall₂ hfs fun q f hq => hq.selects_iff search doc]
    simp only [List.mem_filter, Bool.not_eq_true', and_assoc]
  by_cases hkept : fs.filter (!·.isEmpty) = []
  · rw [hkept] at hfilter
    have hstage : d.filterStage? = .ok none := filterStage?_of_isEmpty hfilter rfl
    have hall : ∀ doc, d.Selects search doc := fun doc => ⟨none, hstage, nofun⟩
    exact ⟨d, hd, ⟨none, hstage⟩, fun doc => iff_of_true (hall doc) (.inr (hnone.mpr hkept))⟩
  · have hcompile : ∀ f ∈ fs, f.isEmpty = false → ∃ body, f.compile = .ok body :=
      forall_mem_of_forall₂ hfs fun q f hq => hq.compiles
    have hbodies : ∀ f ∈ fs.filter (!·.isEmpty), ∃ body, f.compile = .ok body := by
      intro f hf
      obtain ⟨hf, hgiven⟩ := List.mem_filter.mp hf
      exact hcompile f hf (Bool.not_eq_true' _ ▸ hgiven)
    obtain ⟨body, hbody, hiff⟩ := Filter.selects_anyOf search hkept hbodies
    have hgiven : (Filter.anyOf (fs.filter (!·.isEmpty))).isEmpty = false := by
      rw [Filter.isEmpty_anyOf]
      exact List.isEmpty_eq_false_iff.mpr hkept
    refine ⟨d, hd, ⟨_, filterStage?_of_compile hfilter hgiven hbody⟩, fun doc => ?_⟩
    rw [selects_iff search hfilter hgiven hbody, hiff, hsome, hnone, or_iff_left hkept]

/-- Two queries with conditions, and one without. -/
theorem selects_anyOf_iff_songs :
    let filters : FilterStore := ⟨[⟨[⟨"genre", .equal, .text "rock"⟩], []⟩, .empty,
      ⟨[⟨"plays", .greater, .int 20⟩], []⟩]⟩
    let qs : List Query := [{ className := .text "Song", filter := 0 },
      { className := .text "Song", filter := 1 }, { className := .text "Song", filter := 2 }]
    filters.IsClosed ∧ (∀ q ∈ qs, q.className = .text "Song") ∧
      (∀ q ∈ qs, q.filter < filters.cells.length) ∧
      (∀ q ∈ qs, ∃ stage?, (⟨filters, q⟩ : Draft).filterStage? = .ok stage?) ∧
      ∃ d, anyOf filters (qs.map .query) = .ok d ∧
        ∀ doc : Value, d.Selects (fun _ _ _ => false) doc ↔
          (∃ q ∈ qs, (filters.get q.filter).isEmpty = false ∧
            (⟨filters, q⟩ : Draft).Selects (fun _ _ _ => false) doc) ∨
          ∀ q ∈ qs, (filters.get q.filter).isEmpty = true := by
  intro filters qs
  have hclosed : filters.IsClosed := by
    simp [FilterStore.IsClosed, filters, FilterCell.empty]
  have hclass : ∀ q ∈ qs, q.className = .text "Song" := by
    simp [qs]
  have hstored : ∀ q ∈ qs, q.filter < filters.cells.length := by
    simp [qs, filters]
  have hcompiles : ∀ q ∈ qs, ∃ stage?, (⟨filters, q⟩ : Draft).filterStage? = .ok stage? := by
    simp only [qs, List.forall_mem_cons]
    exact ⟨⟨_, rfl⟩, ⟨_, rfl⟩, ⟨_, rfl⟩, nofun⟩
  obtain ⟨d, hd, _, hiff⟩ := selects_anyOf_iff (fun _ _ _ => false) hclosed (by decide)
    (List.cons_ne_nil _ _) hclass hstored hcompiles
  exact ⟨hclosed, hclass, hstored, hcompiles, d, hd, hiff⟩

/-- A query without conditions selects every document, but a query for any of it and another
    one does not. -/
theorem not_selects_anyOf_empty :
    let filters : FilterStore := ⟨[.empty, ⟨[⟨"genre", .equal, .text "rock"⟩], []⟩]⟩
    let all : Query := { className := .text "Song", filter := 0 }
    let rock : Query := { className := .text "Song", filter := 1 }
    let doc : Value := .object [("genre", .text "jazz")]
    filters.Built ∧ (⟨filters, all⟩ : Draft).Selects (fun _ _ _ => false) doc ∧
      (∃ stage?, (⟨filters, rock⟩ : Draft).filterStage? = .ok stage?) ∧
      ∃ d, anyOf filters [.query all, .query rock] = .ok d ∧
        ¬ d.Selects (fun _ _ _ => false) doc := by
  intro filters all rock doc
  have hnew : FilterStore.Built ⟨[.empty, .empty]⟩ := .new (.new .empty)
  have hadd : FilterStore.add ⟨[.empty, .empty]⟩ 1 (.text "genre") (.text "eq") (.text "rock") =
      .ok filters := rfl
  refine ⟨.add hnew hadd, ⟨none, rfl, nofun⟩, ⟨_, rfl⟩, _, rfl, ?_⟩
  rintro ⟨stage?, hstage, hselects⟩
  cases hstage
  cases hselects _ rfl

end Draft

end DocQuery
