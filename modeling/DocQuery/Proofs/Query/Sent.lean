-- SUMMARY: What a server reads from the request for a query is the encoded pipeline of the query.
import DocQuery.Gateway.Server
import DocQuery.Proofs.Encoding.Data
import DocQuery.Proofs.Filter.Body
import DocQuery.Proofs.Pipeline
import DocQuery.Proofs.Selection.Filter

/-!
# Requests for queries

The pipeline of a query whose values can be sent is plain data, and so is the pipeline that
it is encoded as. So the request can be written unless a number in it is too long, and whoever
reads its text gets the encoded pipeline as it was.
-/

namespace DocQuery

open Json (IsData isData_ofPairs)

variable {k : Nat}

/-! ## Match bodies -/

namespace Filter

open Constraint (IsDataDoc)

/-- The entries of a body that is plain data. -/
structure IsDataBody (k : Nat) (body : MatchBody) : Prop where
  nodup : (Assoc.keys body).Nodup
  data : ∀ e ∈ body, IsData k e.2

theorem IsDataBody.isData {body : MatchBody} (h : IsDataBody k body) : IsData k (.object body) :=
  .object h.nodup h.data

theorem IsDataBody.assign {body : MatchBody} (h : IsDataBody k body) (key : String) {v : Value}
    (hv : IsData k v) : IsDataBody k (Assoc.assign key v body) :=
  ⟨Assoc.nodup_keys_assign h.nodup key v, Assoc.forall_mem_assign h.data key hv⟩

theorem isDataDoc_docsByField {docs : List (String × OperatorDoc)}
    (h : ∀ d ∈ docs, IsDataDoc k d.2) : ∀ d ∈ docsByField docs, IsDataDoc k d.2 := by
  refine List.foldlRecOn (motive := fun acc : List (String × OperatorDoc) =>
    ∀ d ∈ acc, IsDataDoc k d.2) docs _ (List.forall_mem_nil _) fun acc hacc d hd => ?_
  refine Assoc.forall_mem_assign hacc d.1 (Assoc.forall_mem_merge ?_ (h d hd))
  cases hold : Assoc.find? d.1 acc with
  | none => exact List.forall_mem_nil _
  | some old => exact hacc _ (Assoc.mem_of_find?_eq_some hold)

theorem isDataBody_conjunction {docs : List (String × OperatorDoc)}
    (hdocs : ∀ d ∈ docs, IsOperatorDoc d.2) (hdata : ∀ d ∈ docs, IsDataDoc k d.2) :
    IsDataBody k (conjunction docs) := by
  have hmerged := Selection.areMerged_docsByField hdocs
  refine ⟨by rw [keys_conjunction_eq]; exact hmerged.nodup, List.forall_mem_map.mpr fun d hd => ?_⟩
  have hdoc := isDataDoc_docsByField hdata d hd
  show IsData k (operand d.2)
  unfold operand
  split
  · rename_i v heq
    exact hdoc ("$eq", v) (heq ▸ List.mem_singleton.mpr rfl)
  · exact .object (hmerged.docs d hd).nodup hdoc

theorem isData_disjunction {alternatives : List Value} (h : ∀ v ∈ alternatives, IsData k v) :
    IsData k (disjunction alternatives) :=
  .object (List.nodup_singleton _) (List.forall_mem_singleton.mpr (.list h))

theorem IsDataBody.withGroups {body : MatchBody} (h : IsDataBody k body)
    {groups : List (List Value)} (hgroups : ∀ g ∈ groups, ∀ v ∈ g, IsData k v) :
    IsDataBody k (withGroups body groups) := by
  have hgiven : ∀ g ∈ groups.filter (!·.isEmpty), ∀ v ∈ g, IsData k v := fun g hg =>
    hgroups g (List.mem_of_mem_filter hg)
  unfold Filter.withGroups
  split
  · exact h
  · rename_i alternatives heq
    exact h.assign _ (.list (hgiven _ (heq ▸ List.mem_singleton.mpr rfl)))
  · refine h.assign _ (.list (List.forall_mem_map.mpr fun g hg => ?_))
    exact isData_disjunction (hgiven g hg)

end Filter

namespace FilterStore

/-- All constraints that a filter leads to are on values that can be sent, with numbers of at most
    `k` digits. -/
def IsSendable (s : FilterStore) (k : Nat) (id : FilterId) : Prop :=
  ∀ a, s.LeadsTo id a → ∀ c ∈ (s.get a).constraints, c.value.IsSendable k

theorem isSendable_of_forall {s : FilterStore}
    (h : ∀ cell ∈ s.cells, ∀ c ∈ cell.constraints, c.value.IsSendable k) (id : FilterId) :
    s.IsSendable k id :=
  fun a _ => forall_mem_constraints h a

/-- The body of a filter on values that can be sent is plain data. -/
theorem isDataBody_compileWithin {s : FilterStore} {fuel : Nat} {id : FilterId}
    (hs : s.IsSendable k id) {body : MatchBody} (h : s.compileWithin fuel id = .ok body) :
    Filter.IsDataBody k body := by
  induction fuel generalizing id body with
  | zero => cases h
  | succ fuel ih =>
    obtain ⟨docs, groups, hparts, rfl⟩ := compileWithin_succ_iff.mp h
    have hdocs : ∀ d ∈ docs, IsOperatorDoc d.2 :=
      forall_mem_of_mapM_eq_ok hparts.docs fun c _ d => Constraint.isOperatorDoc_of_compile
    have hdata : ∀ d ∈ docs, Constraint.IsDataDoc k d.2 :=
      forall_mem_of_mapM_eq_ok hparts.docs fun c hc d =>
        Constraint.isDataDoc_compile (hs id .refl c hc)
    refine (Filter.isDataBody_conjunction hdocs hdata).withGroups fun vs hvs v hv => ?_
    obtain ⟨g, hg, hgroup⟩ := exists_mem_of_forall₂ hparts.groups.flip hvs
    obtain ⟨a, ha, b, hb, rfl⟩ := exists_mem_of_forall₂ hgroup.flip hv
    have hmember : s.IsSendable k a := fun c hc =>
      hs c (Relation.ReflTransGen.head ⟨g, hg, ha⟩ hc)
    exact (ih hmember hb).isData

end FilterStore

/-! ## Stages -/

namespace Stage

theorem isData_single {v : Value} (h : IsData k v) (key : String) : IsData k (single key v) :=
  .object (List.nodup_singleton _) (List.forall_mem_singleton.mpr h)

end Stage

namespace Pipeline

/-- A direction is written as a number of one digit. -/
theorem digits_sign (o : Direction) : (Value.int o.sign).digits = 1 := by
  cases o <;> rfl

theorem isData_sortStage? (hk : 0 < k) {orders : List Order} {s : Stage}
    (hs : sortStage? orders = some s) {doc : Value} (h : s.toDocument = .ok doc) : IsData k doc := by
  obtain rfl := eq_of_sortStage? hs
  rw [Stage.toDocument] at h
  split at h <;> cases h
  have hfields := Selection.ofPairs_object
    (orders.map fun o => (FieldName.wire (.text o.field), Value.int o.direction.sign))
  have hbody : IsData k (.object (Assoc.ofPairs (orders.map fun o =>
      (FieldName.wire (.text o.field), Value.int o.direction.sign)))) :=
    isData_ofPairs (List.forall_mem_map.mpr fun o _ => .int _ ((digits_sign _).trans_le hk))
  rw [Value.object, ← hfields, List.map_map] at hbody
  exact Stage.isData_single hbody _

/-- The bound of a page is null or a number, and a number that can be sent is a whole one. -/
theorem isData_of_isNegative {v : Value} (hv : v.IsSendable k) {negative : Bool}
    (h : isNegative v = .ok negative) : IsData k v := by
  cases hv with
  | null => exact .null
  | bool b => exact .bool b
  | int n hdigits => exact .int n hdigits
  | _ => cases h

theorem isData_including (hk : 0 < k) {names : List String} {doc : Value}
    (h : (Stage.including names).toDocument = .ok doc) : IsData k doc := by
  cases h
  exact Stage.isData_single (isData_ofPairs (List.forall_mem_map.mpr fun _ _ => .int 1 hk)) _

end Pipeline

namespace Draft

/-- All values that a query compares with can be sent, and so can the bounds of its page. Numbers
    have at most `k` digits. -/
structure IsSendable (k : Nat) (d : Draft) : Prop where
  filter : d.filters.IsSendable k d.query.filter
  skip : d.query.skip.IsSendable k
  limit : d.query.limit.IsSendable k

theorem isData_filterStage? {d : Draft} (hd : d.filters.IsSendable k d.query.filter) {s : Stage}
    (hs : d.filterStage? = .ok (some s)) {doc : Value} (h : s.toDocument = .ok doc) :
    IsData k doc := by
  obtain ⟨f, hf, hs⟩ := exists_of_bind_eq_ok hs
  unfold Pipeline.filterStage? at hs
  split at hs
  · cases hs
  · obtain ⟨body, hbody, hs⟩ := exists_of_map_eq_ok hs
    cases hs
    cases h
    rw [← FilterStore.compile_eq hf] at hbody
    exact Stage.isData_single (FilterStore.isDataBody_compileWithin hd hbody).isData _

/-- The pipeline of a query whose values can be sent is plain data. -/
theorem isData_pipeline (hk : 0 < k) {d : Draft} (hd : d.IsSendable k) {docs : List Value}
    (h : d.pipeline = .ok docs) : ∀ doc ∈ docs, IsData k doc := by
  obtain ⟨stages, hstages, h⟩ := exists_of_bind_eq_ok h
  obtain ⟨_, hcounts, _⟩ := exists_of_bind_eq_ok hstages
  obtain ⟨hskip, hlimit⟩ := Pipeline.checkCounts_eq_ok_iff.mp hcounts
  refine forall_mem_of_mapM_eq_ok h fun s hs doc hdoc => ?_
  rcases mem_stages_cases hstages hs with hs | hs | hs | hs | rfl
  · exact isData_filterStage? hd.filter hs hdoc
  · exact Pipeline.isData_sortStage? hk hs hdoc
  · obtain rfl := Pipeline.eq_of_skipStage? hs
    cases hdoc
    exact Stage.isData_single (Pipeline.isData_of_isNegative hd.skip hskip) _
  · obtain rfl := Pipeline.eq_of_limitStage? hs
    cases hdoc
    exact Stage.isData_single (Pipeline.isData_of_isNegative hd.limit hlimit) _
  · exact Pipeline.isData_including hk hdoc

/-! ## Requests -/

theorem pipelineText_eq {docs : Value} {stages : List Value}
    (h : Encoding.pipeline .remote docs = .ok stages) :
    Server.pipelineText docs = Json.compact (.list stages) := by
  rw [Server.pipelineText, h]
  rfl

/-- Nothing is sent where a number is too long for its text. -/
theorem aggregate_of_lt {docs : Value} {stages : List Value}
    (hstages : Encoding.pipeline .remote docs = .ok stages) (hdata : IsData k (.list stages))
    (hlong : Whole.maxDigits < (Value.list stages).digits) (s : Server) (className : Value) :
    s.aggregate className docs = .still s (.error (.argument .intTooLong)) := by
  have hrefused : Json.compact (.list stages) = .error (.argument .intTooLong) :=
    hdata.write_of_lt hlong _
  rw [Server.aggregate, pipelineText_eq hstages, hrefused]

/-- A query for the songs with a number of plays. -/
def songsPlayed (n : Int) : Draft :=
  ⟨⟨[⟨[⟨"plays", .equal, .int n⟩], []⟩]⟩, { className := .text "Song", filter := 0 }⟩

/-- The pipeline for the songs with a number of plays. -/
def stagesPlayed (n : Int) : List Value :=
  [.object [("$match", .object [("plays", .int n)])]]

theorem pipeline_songsPlayed (n : Int) : (songsPlayed n).pipeline = .ok (stagesPlayed n) := by
  have hfield : FieldName.wire (.text "plays") = "plays" := by decide
  have hcompile : (Constraint.mk "plays" .equal (.int n)).compile =
      .ok ("plays", [("$eq", .int n)]) := by
    show Except.ok (FieldName.wire (.text "plays"), _) = _
    rw [hfield]
  have hbody : Filter.compile (.mk [⟨"plays", .equal, .int n⟩] []) = .ok [("plays", .int n)] := by
    rw [Filter.compile, List.mapM_cons, hcompile]
    rfl
  have hfilter : (songsPlayed n).filter = .ok (.mk [⟨"plays", .equal, .int n⟩] []) := rfl
  have hstage : (songsPlayed n).filterStage? =
      .ok (some (.filter (.object [("plays", .int n)]))) := by
    rw [Draft.filterStage?, hfilter]
    show Pipeline.filterStage? (.mk [⟨"plays", .equal, .int n⟩] []) = _
    rw [Pipeline.filterStage?, hbody]
    rfl
  rw [Draft.pipeline, Draft.stages, hstage]
  rfl

theorem encode_stagesPlayed (n : Int) :
    Encoding.pipeline .remote (.list (stagesPlayed n)) = .ok (stagesPlayed n) :=
  rfl

theorem isData_stagesPlayed {n : Int} (hn : (Value.int n).digits ≤ k) :
    IsData k (.list (stagesPlayed n)) := by
  refine .list (List.forall_mem_singleton.mpr (Stage.isData_single ?_ _))
  exact Stage.isData_single (.int n hn) _

theorem digits_le_stagesPlayed (n : Int) :
    (Value.int n).digits ≤ (Value.list (stagesPlayed n)).digits := by
  have hstage := Value.digits_list_le_iff.mp (Nat.le_refl (Value.list (stagesPlayed n)).digits)
  have hbody := Value.digits_object_le_iff.mp (hstage _ List.mem_cons_self)
  exact Value.digits_object_le_iff.mp (hbody _ List.mem_cons_self) _ List.mem_cons_self

theorem isSendable_songsPlayed (hk : 0 < k) {n : Int} (hn : (Value.int n).digits ≤ k) :
    (songsPlayed n).IsSendable k := by
  refine ⟨FilterStore.isSendable_of_forall (List.forall_mem_singleton.mpr ?_) 0, .int 0 hk, .null⟩
  exact List.forall_mem_singleton.mpr (.int n hn)

end Draft

end DocQuery
