-- SUMMARY: Which documents the body of a filter selects, compared with its constraints and groups.
import DocQuery.Proofs.Filter.Store
import DocQuery.Proofs.Selection.Merged

/-!
# Selection by filters

A filter is a conjunction of constraints and of groups of alternatives. Its body selects
the documents that meet all of them, as long as no constraint overwrites another one.
-/

namespace DocQuery.Selection

open Encoding (isLogical)

variable (search : Value → Bool → Value → Bool)

/-! ## One document for each field -/

/-- There is one document for each field, and it is one of store operators. -/
structure AreMerged (byField : Docs) : Prop where
  nodup : (Assoc.keys byField).Nodup
  docs : ∀ c ∈ byField, IsOperatorDoc c.2

theorem AreMerged.nil : AreMerged [] :=
  ⟨List.nodup_nil, nofun⟩

theorem isOperatorDoc_merge {old doc : OperatorDoc} (hold : old = [] ∨ IsOperatorDoc old)
    (hdoc : IsOperatorDoc doc) : IsOperatorDoc (Assoc.merge old doc) := by
  rcases hold with rfl | hold
  · have hself : Assoc.merge [] doc = doc := Assoc.ofPairs_of_nodup hdoc.nodup
    rwa [hself]
  · refine ⟨?_, Assoc.nodup_keys_merge hold.nodup doc, fun o ho => ?_, fun hmem => ?_⟩
    · intro hnil
      obtain ⟨o, ho⟩ := List.exists_mem_of_ne_nil doc hdoc.nonempty
      have hmem : o.1 ∈ Assoc.keys (Assoc.merge old doc) :=
        Assoc.mem_keys_merge.mpr (.inr (List.mem_map_of_mem ho))
      rw [hnil] at hmem
      cases hmem
    · rcases Assoc.mem_keys_merge.mp (List.mem_map_of_mem ho) with hmem | hmem
      · obtain ⟨o', ho', heq⟩ := List.mem_map.mp hmem
        rw [← heq]
        exact hold.lead o' ho'
      · obtain ⟨o', ho', heq⟩ := List.mem_map.mp hmem
        rw [← heq]
        exact hdoc.lead o' ho'
    · rw [Assoc.mem_keys_merge] at hmem ⊢
      exact hmem.imp hold.options hdoc.options

/-- The operand of an operator on a field. -/
def operandOf (field op : String) (byField : Docs) : Option Value :=
  (Assoc.find? field byField).bind (Assoc.find? op)

theorem areMerged_addDoc {byField : Docs} (h : AreMerged byField) {field : String}
    {doc : OperatorDoc} (hdoc : IsOperatorDoc doc) :
    AreMerged (Filter.addDoc byField field doc) := by
  have hnodup : (Assoc.keys (Filter.addDoc byField field doc)).Nodup :=
    Assoc.nodup_keys_assign h.nodup _ _
  refine ⟨hnodup, fun c hc => ?_⟩
  have hfind := (Assoc.find?_eq_some_iff hnodup).mpr hc
  rw [Filter.addDoc, Assoc.find?_assign] at hfind
  split at hfind
  · rw [← Option.some.inj hfind]
    refine isOperatorDoc_merge ?_ hdoc
    cases hold : Assoc.find? field byField with
    | none => exact .inl rfl
    | some old => exact .inr (h.docs _ (Assoc.mem_of_find?_eq_some hold))
  · exact h.docs c (Assoc.mem_of_find?_eq_some hfind)

theorem operandOf_addDoc {byField : Docs} {field : String} {doc : OperatorDoc}
    (hdoc : IsOperatorDoc doc) (g op : String) :
    operandOf g op (Filter.addDoc byField field doc) =
      (if field == g then Assoc.find? op doc else none).or (operandOf g op byField) := by
  rw [operandOf, Filter.addDoc, Assoc.find?_assign]
  by_cases hfield : field = g
  · subst hfield
    simp only [if_true, Option.bind_some, Assoc.find?_merge hdoc.nodup, beq_self_eq_true, operandOf]
    cases Assoc.find? field byField <;> rfl
  · have hne : (field == g) = false := beq_eq_false_iff_ne.mpr hfield
    simp only [if_false, hne, Bool.false_eq_true, Option.none_or, operandOf]

/-- Adding documents one by one, the last operand of each operator stays. -/
theorem merged_foldl {docs : Docs} (hdocs : ∀ c ∈ docs, IsOperatorDoc c.2) {byField : Docs}
    (h : AreMerged byField) :
    AreMerged (docs.foldl (fun acc (field, doc) => Filter.addDoc acc field doc) byField) ∧
      ∀ field op, operandOf field op
        (docs.foldl (fun acc (field, doc) => Filter.addDoc acc field doc) byField) =
          (lookIn field docs op).or (operandOf field op byField) := by
  induction docs generalizing byField with
  | nil => exact ⟨h, fun field op => rfl⟩
  | cons c cs ih =>
    have hc := hdocs c List.mem_cons_self
    have hadded : AreMerged (Filter.addDoc byField c.1 c.2) := areMerged_addDoc h hc
    obtain ⟨hmerged, hoperand⟩ := ih (fun c' hc' => hdocs c' (List.mem_cons_of_mem c hc')) hadded
    refine ⟨hmerged, fun field op => ?_⟩
    rw [List.foldl_cons, hoperand, operandOf_addDoc hc, lookIn, Option.or_assoc]

theorem areMerged_docsByField {docs : Docs} (hdocs : ∀ c ∈ docs, IsOperatorDoc c.2) :
    AreMerged (Filter.docsByField docs) :=
  (merged_foldl hdocs .nil).1

/-- Each field's document has the last operand of each operator. -/
theorem find?_docsByField {docs : Docs} (hdocs : ∀ c ∈ docs, IsOperatorDoc c.2)
    (field op : String) : operandOf field op (Filter.docsByField docs) = lookIn field docs op := by
  rw [Filter.docsByField, (merged_foldl hdocs .nil).2]
  exact Option.or_none

/-! ## The conjunction of the constraints -/

/-- What the constraints of a body need so that their documents mean the same in it. -/
structure AreFaithful (docs : Docs) : Prop where
  /-- No field is named like a logical key. -/
  fields : ∀ c ∈ docs, isLogical c.1 = false
  /-- No value that a field has to equal reads as operators where it stands alone. -/
  equality : ∀ field v, (field, [("$eq", v)]) ∈ Filter.docsByField docs →
    readsAsOperators v = false
  options : OptionsKept docs

/-- A document stands for itself, or its only operand for an equality. -/
theorem holds_operand {doc : OperatorDoc} (hdoc : IsOperatorDoc doc)
    (hequality : ∀ v, doc = [("$eq", v)] → readsAsOperators v = false) (x : Option Value) :
    holds search (Filter.operand doc) x = true ↔
      LookupHolds search (Assoc.find? · doc) x := by
  rw [← holds_iff_lookupHolds search hdoc.nonempty hdoc.nodup hdoc.lead]
  unfold Filter.operand
  split
  · rename_i v
    rw [holds_of_not_readsAsOperators search (hequality v rfl),
      holds_operators search hdoc.nonempty hdoc.lead]
    simp [operatorHolds]
  · rfl

/-- The document of a field has the operands of the field. -/
theorem lookIn_eq {docs : Docs} (hdocs : ∀ c ∈ docs, IsOperatorDoc c.2) {field : String}
    {doc : OperatorDoc} (hmem : (field, doc) ∈ Filter.docsByField docs) :
    lookIn field docs = (Assoc.find? · doc) := by
  funext op
  rw [← find?_docsByField hdocs, operandOf,
    (Assoc.find?_eq_some_iff (areMerged_docsByField hdocs).nodup).mpr hmem]
  rfl

theorem isLogical_docsByField {docs : Docs} (hdocs : ∀ c ∈ docs, IsOperatorDoc c.2)
    (h : AreFaithful docs) {field : String} {doc : OperatorDoc}
    (hmem : (field, doc) ∈ Filter.docsByField docs) : isLogical field = false := by
  obtain ⟨o, ho⟩ := List.exists_mem_of_ne_nil doc
    ((areMerged_docsByField hdocs).docs _ hmem).nonempty
  have hsome : (lookIn field docs o.1).isSome := by
    rw [lookIn_eq hdocs hmem, Assoc.find?_isSome_iff]
    exact List.mem_map_of_mem ho
  obtain ⟨c, hc, rfl, _⟩ := lookIn_isSome.mp hsome
  exact h.fields c hc

/-- The constraints' part of a body asks for the last operands on each field. -/
theorem selects_conjunction {docs : Docs} (hdocs : ∀ c ∈ docs, IsOperatorDoc c.2)
    (h : AreFaithful docs) (doc : Value) :
    selects search doc (.object (Filter.conjunction docs)) = true ↔
      ∀ field, LookupHolds search (lookIn field docs) (at? doc field) := by
  have hmerged := areMerged_docsByField hdocs
  have hentry : ∀ field ops, (field, ops) ∈ Filter.docsByField docs →
      (entryHolds search doc field (Filter.operand ops) = true ↔
        LookupHolds search (lookIn field docs) (at? doc field)) := by
    intro field ops hmem
    have hequality : ∀ v, ops = [("$eq", v)] → readsAsOperators v = false := by
      rintro v rfl
      exact h.equality field v hmem
    rw [entryHolds, isLogical_docsByField hdocs h hmem, lookIn_eq hdocs hmem]
    exact holds_operand search (hmerged.docs _ hmem) hequality _
  rw [selects_object, Filter.conjunction, List.all_map, List.all_eq_true]
  constructor
  · intro hall field
    cases hfind : Assoc.find? field (Filter.docsByField docs) with
    | none =>
      have hnone : lookIn field docs = fun _ => none := by
        funext op
        rw [← find?_docsByField hdocs, operandOf, hfind]
        rfl
      rw [hnone]
      exact lookupHolds_none search _
    | some ops =>
      have hmem := Assoc.mem_of_find?_eq_some hfind
      exact (hentry field ops hmem).mp (hall _ hmem)
  · rintro hall ⟨field, ops⟩ hmem
    exact (hentry field ops hmem).mpr (hall field)

/-- A search takes over the options of an earlier one on its field. -/
example : Filter.conjunction [("title", [("$regex", .text "a"), ("$options", .text "i")]),
    ("title", [("$regex", .text "b")])] =
      [("title", .object [("$regex", .text "b"), ("$options", .text "i")])] := rfl

/-- A mapping of operators that a field has to equal stands alone as those operators. -/
example : Filter.conjunction [("plays", [("$eq", .object [("$ne", .int 1)])])] =
    [("plays", .object [("$ne", .int 1)])] := rfl

/-- The clause of one constraint asks for its own operands. -/
theorem entryHolds_doc {docs : Docs} (hdocs : ∀ c ∈ docs, IsOperatorDoc c.2)
    (h : AreFaithful docs) (doc : Value) {c : String × OperatorDoc} (hc : c ∈ docs) :
    entryHolds search doc c.1 (.object c.2) = true ↔ MeetsOwn search (at? doc) c := by
  have hdoc := hdocs c hc
  rw [entryHolds, h.fields c hc]
  exact holds_iff_lookupHolds search hdoc.nonempty hdoc.nodup hdoc.lead _

/-! ## Groups -/

theorem entryHolds_or (doc : Value) (alternatives : List Value) :
    entryHolds search doc "$or" (.list alternatives) = true ↔
      ∃ v ∈ alternatives, selects search doc v = true := by
  have hlogical : isLogical "$or" = true := rfl
  rw [entryHolds, if_pos hlogical, verdicts_list]
  simp [combine]

theorem selects_disjunction (doc : Value) (alternatives : List Value) :
    selects search doc (Filter.disjunction alternatives) = true ↔
      ∃ v ∈ alternatives, selects search doc v = true := by
  rw [Filter.disjunction, selects_object]
  simp only [List.all_cons, List.all_nil, Bool.and_true]
  exact entryHolds_or search doc alternatives

theorem entryHolds_and (doc : Value) (bodies : List Value) :
    entryHolds search doc "$and" (.list bodies) = true ↔
      ∀ v ∈ bodies, selects search doc v = true := by
  have hlogical : isLogical "$and" = true := rfl
  rw [entryHolds, if_pos hlogical, verdicts_list]
  simp [combine]

theorem selects_append (doc : Value) (fields : List (String × Value)) (key : String)
    (v : Value) : selects search doc (.object (fields ++ [(key, v)])) = true ↔
      selects search doc (.object fields) = true ∧ entryHolds search doc key v = true := by
  rw [selects_object, selects_object, List.all_append, Bool.and_eq_true]
  simp

/-- Groups with alternatives are added to a body that has no logical keys. -/
theorem selects_withGroups {body : MatchBody} (hbody : ∀ key ∈ Assoc.keys body,
    isLogical key = false) {groups : List (List Value)} (hgroups : ∀ g ∈ groups, g ≠ [])
    (doc : Value) : selects search doc (.object (Filter.withGroups body groups)) = true ↔
      selects search doc (.object body) = true ∧
        ∀ g ∈ groups, ∃ v ∈ g, selects search doc v = true := by
  have hall : groups.filter (!·.isEmpty) = groups := by
    refine List.filter_eq_self.mpr fun g hg => ?_
    simpa using hgroups g hg
  have hnew : ∀ key, isLogical key = true → key ∉ Assoc.keys body := by
    intro key hkey hmem
    rw [hbody key hmem] at hkey
    cases hkey
  rw [Filter.withGroups, hall]
  rcases groups with _ | ⟨g, _ | ⟨g', gs⟩⟩
  · simp
  · show selects search doc (.object (Assoc.assign "$or" (.list g) body)) = true ↔ _
    rw [Assoc.assign_of_not_mem (hnew "$or" rfl), selects_append, entryHolds_or]
    simp
  · show selects search doc (.object (Assoc.assign "$and" (.list ((g :: g' :: gs).map
      Filter.disjunction)) body)) = true ↔ _
    rw [Assoc.assign_of_not_mem (hnew "$and" rfl), selects_append, entryHolds_and,
      List.forall_mem_map]
    simp only [selects_disjunction]

/-! ## Filters -/

/-- The body with one clause: a field and its operator document. -/
def oneClause (c : String × OperatorDoc) : Value :=
  .object [(c.1, .object c.2)]

theorem selects_oneClause (doc : Value) (c : String × OperatorDoc) :
    selects search doc (oneClause c) = entryHolds search doc c.1 (.object c.2) := by
  rw [oneClause, selects_object, List.all_cons, List.all_nil, Bool.and_true]

theorem isOperatorDoc_of_mem {constraints : List Constraint} {docs : Docs}
    (h : constraints.mapM Constraint.compile = .ok docs) : ∀ c ∈ docs, IsOperatorDoc c.2 := by
  have hall := mapM_eq_ok_iff.mp h
  clear h
  induction hall with
  | nil => exact nofun
  | cons hhead _ ih =>
    exact List.forall_mem_cons.mpr ⟨Constraint.isOperatorDoc_of_compile hhead, ih⟩

theorem keys_conjunction {docs : Docs} (hdocs : ∀ c ∈ docs, IsOperatorDoc c.2)
    (h : AreFaithful docs) : ∀ key ∈ Assoc.keys (Filter.conjunction docs),
      isLogical key = false := by
  intro key hkey
  rw [Filter.conjunction, Assoc.keys, List.map_map, List.mem_map] at hkey
  obtain ⟨⟨field, ops⟩, hmem, rfl⟩ := hkey
  exact isLogical_docsByField hdocs h hmem

/-- The alternatives of the groups, beside the values that stand for them. -/
abbrev AlternativesOf (s : FilterStore) (ids : List (List FilterId))
    (groups : List (List Value)) : Prop :=
  List.Forall₂ (List.Forall₂ fun a v => ∃ b, s.compile a = .ok b ∧ v = .object b) ids groups

theorem alternatives_ne_nil {s : FilterStore} {ids : List (List FilterId)}
    {groups : List (List Value)} (h : AlternativesOf s ids groups) (hids : ∀ g ∈ ids, g ≠ []) :
    ∀ g ∈ groups, g ≠ [] := by
  induction h with
  | nil => exact nofun
  | cons hhead _ ih =>
    rw [List.forall_mem_cons] at hids ⊢
    refine ⟨?_, ih hids.2⟩
    rintro rfl
    cases hhead
    exact hids.1 rfl

/-- The body that stands for a value selects what the value does. -/
theorem exists_body_iff {α : Type} {compile : α → Except Error MatchBody} {a : α} {v : Value}
    (h : ∃ b, compile a = .ok b ∧ v = .object b) (doc : Value) : selects search doc v = true ↔
      ∃ b, compile a = .ok b ∧ selects search doc (.object b) = true := by
  obtain ⟨b, hb, rfl⟩ := h
  refine ⟨fun hsel => ⟨b, hb, hsel⟩, ?_⟩
  rintro ⟨b', hb', hsel⟩
  rw [hb] at hb'
  cases hb'
  exact hsel

theorem exists_selected_iff {α : Type} {compile : α → Except Error MatchBody} {g : List α}
    {vs : List Value} (h : List.Forall₂ (fun a v => ∃ b, compile a = .ok b ∧ v = .object b) g vs)
    (doc : Value) : (∃ v ∈ vs, selects search doc v = true) ↔
      ∃ a ∈ g, ∃ b, compile a = .ok b ∧ selects search doc (.object b) = true :=
  (exists_mem_iff_of_forall₂ h fun _ _ ha => (exists_body_iff search ha doc).symm).symm

theorem forall_selected_iff {s : FilterStore} {ids : List (List FilterId)}
    {groups : List (List Value)} (h : AlternativesOf s ids groups) (doc : Value) :
    (∀ g ∈ groups, ∃ v ∈ g, selects search doc v = true) ↔
      ∀ g ∈ ids, ∃ a ∈ g, ∃ b, s.compile a = .ok b ∧ selects search doc (.object b) = true :=
  (forall_mem_iff_of_forall₂ h fun _ _ hg => (exists_selected_iff search hg doc).symm).symm

/-- The body of a filter, together with the clauses of the constraints that later ones
    overwrite, selects the documents that every constraint's own clause selects and, of every
    group, the body of some alternative. Where nothing is overwritten the body does by itself. -/
theorem compile_selects_iff {s : FilterStore} (hs : s.Built) {id : FilterId} {f : Filter}
    (hf : s.resolve id = .ok f) (hcompiles : f.Compiles) {docs : Docs}
    (hdocs : (s.get id).constraints.mapM Constraint.compile = .ok docs)
    (hfaithful : AreFaithful docs) : ∃ body, s.compile id = .ok body ∧ ∀ doc : Value,
      (selects search doc (.object body) = true ∧
        ∀ c ∈ overwritten docs, selects search doc (oneClause c) = true) ↔
      (∀ c ∈ docs, selects search doc (oneClause c) = true) ∧
        ∀ g ∈ (s.get id).groups, ∃ a ∈ g, ∃ b, s.compile a = .ok b ∧
          selects search doc (.object b) = true := by
  obtain ⟨docs', groups, hbody, hparts⟩ := FilterStore.exists_compile hf hcompiles
  obtain rfl : docs = docs' := Except.ok.inj (hdocs.symm.trans hparts.docs)
  have hall := isOperatorDoc_of_mem hdocs
  have hgroups := alternatives_ne_nil hparts.groups fun g hg => FilterStore.groups_ne_nil hs hg
  refine ⟨_, hbody, fun doc => ?_⟩
  have hown : ∀ c ∈ docs, selects search doc (oneClause c) = true ↔
      MeetsOwn search (at? doc) c := by
    intro c hc
    rw [selects_oneClause, entryHolds_doc search hall hfaithful doc hc]
  have hdocsOwn : (∀ c ∈ docs, selects search doc (oneClause c) = true) ↔
      ∀ c ∈ docs, MeetsOwn search (at? doc) c :=
    forall₂_congr hown
  have hlostOwn : (∀ c ∈ overwritten docs, selects search doc (oneClause c) = true) ↔
      ∀ c ∈ overwritten docs, MeetsOwn search (at? doc) c :=
    forall₂_congr fun c hc => hown c (mem_of_mem_overwritten hc)
  rw [selects_withGroups search (keys_conjunction hall hfaithful) hgroups,
    forall_selected_iff search hparts.groups, hdocsOwn, hlostOwn,
    selects_conjunction search hall hfaithful,
    ← lookIn_holds_iff search hall hfaithful.options (at? doc), and_right_comm]

/-- A filter with an interval and a group, built step by step. -/
theorem compile_selects_iff_interval :
    let s : FilterStore := ⟨[⟨[⟨"plays", .atLeast, .int 5⟩, ⟨"plays", .less, .int 20⟩], [[1]]⟩,
      ⟨[⟨"genre", .equal, .text "rock"⟩], []⟩]⟩
    let docs : Docs := [("plays", [("$gte", .int 5)]), ("plays", [("$lt", .int 20)])]
    s.Built ∧ (∃ f, s.resolve 0 = .ok f ∧ f.Compiles) ∧
      (s.get 0).constraints.mapM Constraint.compile = .ok docs ∧ AreFaithful docs ∧
      ∃ body, s.compile 0 = .ok body ∧ ∀ doc : Value,
        (selects (fun _ _ _ => false) doc (.object body) = true ∧
          ∀ c ∈ overwritten docs, selects (fun _ _ _ => false) doc (oneClause c) = true) ↔
        (∀ c ∈ docs, selects (fun _ _ _ => false) doc (oneClause c) = true) ∧
          ∀ g ∈ (s.get 0).groups, ∃ a ∈ g, ∃ b, s.compile a = .ok b ∧
            selects (fun _ _ _ => false) doc (.object b) = true := by
  intro s docs
  have hs : s.Built := by
    have hnew : FilterStore.Built ⟨[.empty, .empty]⟩ := .new (.new .empty)
    have hgenre : FilterStore.add ⟨[.empty, .empty]⟩ 1 (.text "genre") (.text "eq")
        (.text "rock") = .ok ⟨[.empty, ⟨[⟨"genre", .equal, .text "rock"⟩], []⟩]⟩ := rfl
    have hlow : FilterStore.add ⟨[⟨[], [[1]]⟩, ⟨[⟨"genre", .equal, .text "rock"⟩], []⟩]⟩ 0
        (.text "plays") (.text "gte") (.int 5) = .ok ⟨[⟨[⟨"plays", .atLeast, .int 5⟩], [[1]]⟩,
          ⟨[⟨"genre", .equal, .text "rock"⟩], []⟩]⟩ := rfl
    have hhigh : FilterStore.add ⟨[⟨[⟨"plays", .atLeast, .int 5⟩], [[1]]⟩,
        ⟨[⟨"genre", .equal, .text "rock"⟩], []⟩]⟩ 0 (.text "plays") (.text "lt") (.int 20) =
          .ok s := rfl
    exact .add (.add (.addGroup (.add hnew hgenre) 0 [1]) hlow) hhigh
  have hf : s.resolve 0 = .ok (.mk [⟨"plays", .atLeast, .int 5⟩, ⟨"plays", .less, .int 20⟩]
      [[.mk [⟨"genre", .equal, .text "rock"⟩] []]]) := rfl
  have hcompiles : (Filter.mk [⟨"plays", .atLeast, .int 5⟩, ⟨"plays", .less, .int 20⟩]
      [[.mk [⟨"genre", .equal, .text "rock"⟩] []]]).Compiles := by
    refine .mk (fun c hc => ?_) fun g hg a ha => ?_
    · rcases List.mem_pair.mp hc with rfl | rfl
      · exact ⟨_, rfl⟩
      · exact ⟨_, rfl⟩
    · obtain rfl := List.mem_singleton.mp hg
      obtain rfl := List.mem_singleton.mp ha
      refine .mk (fun c hc => ?_) nofun
      obtain rfl := List.mem_singleton.mp hc
      exact ⟨_, rfl⟩
  have hdocs : (s.get 0).constraints.mapM Constraint.compile = .ok docs := rfl
  have hfaithful : AreFaithful docs := by
    refine ⟨fun c hc => ?_, fun field v hmem => ?_, ?_⟩
    · rcases List.mem_pair.mp hc with rfl | rfl <;> rfl
    · have hmerged : Filter.docsByField docs =
          [("plays", [("$gte", .int 5), ("$lt", .int 20)])] := rfl
      rw [hmerged] at hmem
      exact absurd hmem (by simp)
    · simp [OptionsKept, docs]
  exact ⟨hs, ⟨_, hf, hcompiles⟩, hdocs, hfaithful,
    compile_selects_iff (fun _ _ _ => false) hs hf hcompiles hdocs hfaithful⟩

/-- Of two constraints with one operator on one field the first is lost: a document that does
    not meet it is selected. -/
theorem repeated_operator_lost :
    let s : FilterStore := ⟨[⟨[⟨"plays", .notEqual, .int 1⟩, ⟨"plays", .notEqual, .int 2⟩], []⟩]⟩
    s.Built ∧ ∃ f docs body, s.resolve 0 = .ok f ∧ f.Compiles ∧
      (s.get 0).constraints.mapM Constraint.compile = .ok docs ∧ s.compile 0 = .ok body ∧
      selects (fun _ _ _ => false) (.object [("plays", .int 1)]) (.object body) = true ∧
      ¬ ∀ c ∈ docs,
        selects (fun _ _ _ => false) (.object [("plays", .int 1)]) (oneClause c) = true := by
  intro s
  have hnew : FilterStore.Built ⟨[.empty]⟩ := .new .empty
  have hfirst : FilterStore.add ⟨[.empty]⟩ 0 (.text "plays") (.text "ne") (.int 1) =
      .ok ⟨[⟨[⟨"plays", .notEqual, .int 1⟩], []⟩]⟩ := rfl
  have hsecond : FilterStore.add ⟨[⟨[⟨"plays", .notEqual, .int 1⟩], []⟩]⟩ 0 (.text "plays")
      (.text "ne") (.int 2) = .ok s := rfl
  have hcompiles : (Filter.mk [⟨"plays", .notEqual, .int 1⟩, ⟨"plays", .notEqual, .int 2⟩]
      []).Compiles := by
    refine .mk (fun c hc => ?_) nofun
    rcases List.mem_pair.mp hc with rfl | rfl
    · exact ⟨_, rfl⟩
    · exact ⟨_, rfl⟩
  refine ⟨.add (.add hnew hfirst) hsecond, _, _, _, rfl, hcompiles, rfl, rfl, rfl, fun hall => ?_⟩
  have hlost := hall ("plays", [("$ne", .int 1)]) List.mem_cons_self
  cases hlost

end DocQuery.Selection
