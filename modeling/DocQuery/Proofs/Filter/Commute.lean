-- SUMMARY: Constraints that share no operator on a field may change places, and a further one changes its operators only.
import DocQuery.Proofs.Filter.Body
import DocQuery.Proofs.Selection.Filter
import Mathlib.Data.List.FinRange

/-!
# The order of constraints

Of the constraints of a filter only those on one field with a common operator depend on their
order: the later one overwrites the operand of the earlier. So a body is determined, but for
the order of its keys, by the constraints that put a given operator on a given field, for each
of these in their order. Constraints may be reordered as long as these rows stay as they are, and
one constraint more touches the rows of its own operators only.
-/

namespace DocQuery

/-! ## Reordered lists -/

/-- Of a list that is reordered, those items keep their order that were not moved past each
    other. -/
theorem filter_eq_of_places {α : Type} {xs ys : List α} (places : Fin xs.length ≃ Fin ys.length)
    (hsame : ∀ i, ys.get (places i) = xs.get i) {p : α → Bool}
    (hkept : ∀ i j, i < j → p (xs.get i) = true → p (xs.get j) = true → places i < places j) :
    ys.filter p = xs.filter p := by
  have hfilter : ∀ zs : List α, zs.filter p =
      ((List.finRange zs.length).filter fun i => p (zs.get i)).map zs.get := by
    intro zs
    conv_lhs => rw [← List.map_get_finRange zs, List.filter_map]
    rfl
  have hrises : ∀ zs : List α,
      ((List.finRange zs.length).filter fun i => p (zs.get i)).Pairwise (· < ·) := fun zs =>
    (List.pairwise_lt_finRange _).sublist List.filter_sublist
  -- The places of the items in the one list go to those in the other, in order.
  have hmoved : ((List.finRange xs.length).filter fun i => p (xs.get i)).map places =
      (List.finRange ys.length).filter fun i => p (ys.get i) := by
    refine List.Perm.eq_of_pairwise (fun i j _ _ hij hji => absurd hij (by omega))
      (List.pairwise_map.mpr ((hrises xs).imp_of_mem fun hi hj hij => ?_)) (hrises ys) ?_
    · exact hkept _ _ hij (List.mem_filter.mp hi).2 (List.mem_filter.mp hj).2
    · refine (List.perm_ext_iff_of_nodup (((List.nodup_finRange _).filter _).map places.injective)
        ((List.nodup_finRange _).filter _)).mpr fun j => ?_
      simp only [List.mem_map, List.mem_filter, List.mem_finRange, true_and]
      refine ⟨fun ⟨i, hi, hij⟩ => hij ▸ hsame i ▸ hi, fun hj => ⟨places.symm j, ?_, by simp⟩⟩
      rwa [← hsame, places.apply_symm_apply]
  rw [hfilter ys, ← hmoved, List.map_map, hfilter xs]
  exact List.map_congr_left fun i _ => hsame i

namespace Constraint

/-! ## Constraints that clash -/

/-- The constraint puts an operator on a wire field. -/
def Puts (c : Constraint) (field op : String) : Prop :=
  ∃ doc, c.compile = .ok (field, doc) ∧ op ∈ Assoc.keys doc

/-- The constraints put a common operator on one wire field. -/
def Clashes (c d : Constraint) : Prop :=
  ∃ field op, c.Puts field op ∧ d.Puts field op

/-- The second list has the constraints of the first, in another order, in which those that
    clash stand as before. -/
def Reorders (cs cs' : List Constraint) : Prop :=
  ∃ places : Fin cs.length ≃ Fin cs'.length, (∀ i, cs'.get (places i) = cs.get i) ∧
    ∀ i j, i < j → (cs.get i).Clashes (cs.get j) → places i < places j

end Constraint

namespace Selection

/-- The document is on the field and has the operator. -/
def touches (field op : String) (c : String × OperatorDoc) : Bool :=
  c.1 == field && (Assoc.find? op c.2).isSome

/-- An operand depends on the documents only that have its operator on its field. -/
theorem lookIn_filter (field op : String) (docs : Docs) :
    lookIn field (docs.filter (touches field op)) op = lookIn field docs op := by
  induction docs with
  | nil => rfl
  | cons c cs ih =>
    cases htouches : touches field op c with
    | true => rw [List.filter_cons_of_pos htouches, lookIn, lookIn, ih]
    | false =>
      have hnone : (if c.1 == field then Assoc.find? op c.2 else none) = none := by
        rw [touches] at htouches
        cases hfield : c.1 == field <;> simp_all
      rw [List.filter_cons_of_neg (by simp [htouches]), lookIn, ih, hnone, Option.or_none]

/-- The constraint puts the operator on the field. -/
def puts (field op : String) (c : Constraint) : Bool :=
  match c.compile with
  | .ok doc => touches field op doc
  | .error _ => false

theorem puts_iff {field op : String} {c : Constraint} :
    puts field op c = true ↔ c.Puts field op := by
  unfold puts Constraint.Puts
  cases c.compile with
  | error e => simp
  | ok doc =>
    obtain ⟨f, ops⟩ := doc
    show touches field op (f, ops) = true ↔ _
    rw [touches, Bool.and_eq_true, beq_iff_eq, Assoc.find?_isSome_iff]
    constructor
    · rintro ⟨rfl, hop⟩
      exact ⟨ops, rfl, hop⟩
    · rintro ⟨doc, hdoc, hop⟩
      cases hdoc
      exact ⟨rfl, hop⟩

/-- Reordered constraints have the same operands. -/
theorem lookIn_of_reorders {cs cs' : List Constraint} {docs docs' : Docs}
    (h : Constraint.Reorders cs cs') (hdocs : cs.mapM Constraint.compile = .ok docs)
    (hdocs' : cs'.mapM Constraint.compile = .ok docs') (field op : String) :
    lookIn field docs' op = lookIn field docs op := by
  obtain ⟨places, hsame, hkept⟩ := h
  have hconstraints : cs'.filter (puts field op) = cs.filter (puts field op) :=
    filter_eq_of_places places hsame fun i j hij hi hj =>
      hkept i j hij ⟨field, op, puts_iff.mp hi, puts_iff.mp hj⟩
  have hfiltered : ∀ {cs : List Constraint} {docs : Docs}, cs.mapM Constraint.compile = .ok docs →
      (cs.filter (puts field op)).mapM Constraint.compile =
        .ok (docs.filter (touches field op)) := by
    intro cs docs hdocs
    refine mapM_eq_ok_iff.mpr (List.rel_filter (fun c doc hdoc => ?_) (mapM_eq_ok_iff.mp hdocs))
    simp only [puts, hdoc]
  have hdocs_eq : docs'.filter (touches field op) = docs.filter (touches field op) := by
    have hleft := hfiltered hdocs'
    rw [hconstraints, hfiltered hdocs] at hleft
    exact (Except.ok.inj hleft).symm
  rw [← lookIn_filter, hdocs_eq, lookIn_filter]

end Selection

namespace Filter

open Selection (AreMerged Docs lookIn operandOf)

/-! ## Bodies with the same operands -/

/-- The operands are equal, but for the order of the entries of an operator document. -/
def SameOperand (v w : Value) : Prop :=
  v = w ∨ ∃ es fs, v = .map es ∧ w = .map fs ∧ es.Perm fs

/-- The bodies have the same operands under the same keys, none of which occurs twice. -/
structure SameBody (body body' : MatchBody) : Prop where
  nodup : (Assoc.keys body).Nodup
  keys : (Assoc.keys body).Perm (Assoc.keys body')
  operands : ∀ key, Option.Rel SameOperand (Assoc.find? key body) (Assoc.find? key body')

theorem sameOperand_operand {doc doc' : OperatorDoc} (h : doc.Perm doc') :
    SameOperand (operand doc) (operand doc') := by
  by_cases hbare : ∃ v, doc = [("$eq", v)]
  · obtain ⟨v, rfl⟩ := hbare
    rw [List.singleton_perm.mp h]
    exact .inl rfl
  · have hobject : ∀ {ops : OperatorDoc}, (¬ ∃ v, ops = [("$eq", v)]) →
        operand ops = .map (ops.map fun o => (.text o.1, o.2)) := by
      intro ops hops
      unfold operand
      split
      · exact absurd ⟨_, rfl⟩ hops
      · rfl
    have hbare' : ¬ ∃ v, doc' = [("$eq", v)] := by
      rintro ⟨v, rfl⟩
      exact hbare ⟨v, List.perm_singleton.mp h⟩
    rw [hobject hbare, hobject hbare']
    exact .inr ⟨_, _, rfl, rfl, h.map _⟩

/-- Under each field of a body stands the operand of its operator document. -/
theorem find?_conjunction (docs : Docs) (key : String) :
    Assoc.find? key (conjunction docs) = (Assoc.find? key (docsByField docs)).map operand := by
  rw [conjunction]
  induction docsByField docs with
  | nil => rfl
  | cons c cs ih =>
    by_cases hkey : c.1 = key
    · simp [Assoc.find?, hkey]
    · simp [Assoc.find?, hkey, ih]

/-- The fields of a body are those with an operand. -/
theorem isSome_find?_iff {byField : Docs} (h : AreMerged byField) (field : String) :
    (Assoc.find? field byField).isSome ↔ ∃ op, (operandOf field op byField).isSome := by
  constructor
  · intro hsome
    obtain ⟨doc, hdoc⟩ := Option.isSome_iff_exists.mp hsome
    obtain ⟨o, ho⟩ := List.exists_mem_of_ne_nil doc
      (h.docs _ (Assoc.mem_of_find?_eq_some hdoc)).nonempty
    refine ⟨o.1, ?_⟩
    rw [operandOf, hdoc, Option.bind_some, Assoc.find?_isSome_iff]
    exact List.mem_map_of_mem ho
  · rintro ⟨op, hop⟩
    rw [operandOf] at hop
    cases hdoc : Assoc.find? field byField with
    | none =>
      rw [hdoc] at hop
      cases hop
    | some doc => rfl

/-- Documents with the same operands make the same body. -/
theorem sameBody_conjunction {docs docs' : Docs} (hdocs : ∀ c ∈ docs, IsOperatorDoc c.2)
    (hdocs' : ∀ c ∈ docs', IsOperatorDoc c.2)
    (h : ∀ field op, lookIn field docs' op = lookIn field docs op) :
    SameBody (conjunction docs) (conjunction docs') := by
  have hmerged := Selection.areMerged_docsByField hdocs
  have hmerged' := Selection.areMerged_docsByField hdocs'
  have hoperand : ∀ field op, operandOf field op (docsByField docs') =
      operandOf field op (docsByField docs) := by
    intro field op
    rw [Selection.find?_docsByField hdocs, Selection.find?_docsByField hdocs', h]
  have hfields : ∀ field, (Assoc.find? field (docsByField docs)).isSome ↔
      (Assoc.find? field (docsByField docs')).isSome := by
    intro field
    simp only [isSome_find?_iff hmerged, isSome_find?_iff hmerged', hoperand]
  refine ⟨?_, ?_, fun key => ?_⟩
  · rw [keys_conjunction_eq]
    exact hmerged.nodup
  · rw [keys_conjunction_eq, keys_conjunction_eq]
    refine (List.perm_ext_iff_of_nodup hmerged.nodup hmerged'.nodup).mpr fun field => ?_
    rw [← Assoc.find?_isSome_iff, ← Assoc.find?_isSome_iff, hfields]
  · rw [find?_conjunction, find?_conjunction]
    have hfield := hfields key
    cases hdoc : Assoc.find? key (docsByField docs) with
    | none =>
      cases hdoc' : Assoc.find? key (docsByField docs') with
      | none => exact .none
      | some doc' => simp [hdoc, hdoc'] at hfield
    | some doc =>
      cases hdoc' : Assoc.find? key (docsByField docs') with
      | none => simp [hdoc, hdoc'] at hfield
      | some doc' =>
        refine .some (sameOperand_operand (Assoc.perm_of_find?_eq ?_ ?_ fun op => ?_))
        · exact (hmerged.docs _ (Assoc.mem_of_find?_eq_some hdoc)).nodup
        · exact (hmerged'.docs _ (Assoc.mem_of_find?_eq_some hdoc')).nodup
        · have hop := hoperand key op
          simpa [operandOf, hdoc, hdoc'] using hop.symm

/-! ## Groups -/

/-- Groups leave a body as it is or write one logical key. -/
theorem withGroups_cases (groups : List (List Value)) :
    (∀ body, withGroups body groups = body) ∨
      ∃ key ∈ ["$or", "$and"], ∃ v, ∀ body, withGroups body groups = Assoc.assign key v body := by
  cases hgiven : groups.filter (!·.isEmpty) with
  | nil => exact .inl fun body => by simp [withGroups, hgiven]
  | cons g gs =>
    refine .inr ?_
    cases gs with
    | nil => exact ⟨"$or", by simp, .list g, fun body => by simp [withGroups, hgiven]⟩
    | cons g' gs =>
      exact ⟨"$and", by simp, .list ((g :: g' :: gs).map disjunction), fun body => by
        simp [withGroups, hgiven]⟩

theorem SameBody.assign {body body' : MatchBody} (h : SameBody body body') (key : String)
    (v : Value) : SameBody (Assoc.assign key v body) (Assoc.assign key v body') := by
  have hnodup' : (Assoc.keys body').Nodup := h.keys.nodup_iff.mp h.nodup
  refine ⟨Assoc.nodup_keys_assign h.nodup key v, ?_, fun k => ?_⟩
  · refine (List.perm_ext_iff_of_nodup (Assoc.nodup_keys_assign h.nodup key v)
      (Assoc.nodup_keys_assign hnodup' key v)).mpr fun k => ?_
    rw [Assoc.mem_keys_assign, Assoc.mem_keys_assign, h.keys.mem_iff]
  · rw [Assoc.find?_assign, Assoc.find?_assign]
    split
    · exact .some (.inl rfl)
    · exact h.operands k

theorem SameBody.withGroups {body body' : MatchBody} (h : SameBody body body')
    (groups : List (List Value)) :
    SameBody (withGroups body groups) (withGroups body' groups) := by
  rcases withGroups_cases groups with hnone | ⟨key, -, v, hsome⟩
  · rwa [hnone, hnone]
  · rw [hsome, hsome]
    exact h.assign key v

/-! ## Reordered constraints and one more -/

/-- Reordered constraints compile to the same body. -/
theorem agree_of_reorders {cs cs' : List Constraint} (gs : List (List Filter))
    (h : Constraint.Reorders cs cs') (hcompiles : ∀ c ∈ cs, ∃ doc, c.compile = .ok doc) :
    Agree SameBody (compile (mk cs gs)) (compile (mk cs' gs)) := by
  have hmem : ∀ c ∈ cs', c ∈ cs := by
    obtain ⟨places, hsame, -⟩ := h
    intro c hc
    obtain ⟨i, rfl⟩ := List.mem_iff_get.mp hc
    have hplace := hsame (places.symm i)
    rw [places.apply_symm_apply] at hplace
    exact hplace ▸ List.get_mem cs _
  obtain ⟨docs, hdocs⟩ := exists_mapM_eq_ok hcompiles
  obtain ⟨docs', hdocs'⟩ := exists_mapM_eq_ok fun c hc => hcompiles c (hmem c hc)
  have hsame := sameBody_conjunction (Selection.isOperatorDoc_of_mem hdocs)
    (Selection.isOperatorDoc_of_mem hdocs') (Selection.lookIn_of_reorders h hdocs hdocs')
  rw [compile, compile, hdocs, hdocs']
  cases compileGroups gs with
  | error e => exact .error e
  | ok groups => exact .ok (hsame.withGroups groups)

/-- The second body is the first one with the operands of a document on a field: nothing changes
    under any other key, and of the operators on the field only those of the document. A lone
    equality stands bare, so the operand may be written another way before than after. Where groups
    write that key, nothing changes at all. -/
structure Adds (body body' : MatchBody) (field : String) (doc : OperatorDoc) : Prop where
  others : ∀ key, key ≠ field → Assoc.find? key body' = Assoc.find? key body
  here : (field ∈ ["$or", "$and"] ∧ Assoc.find? field body' = Assoc.find? field body) ∨
    ∃ old new : OperatorDoc, (old = [] ∨ IsOperatorDoc old) ∧ IsOperatorDoc new ∧
      Assoc.find? field body = (if old.isEmpty then none else some (operand old)) ∧
      Assoc.find? field body' = some (operand new) ∧
      (∀ op ∈ Assoc.keys doc, Assoc.find? op new = Assoc.find? op doc) ∧
      ∀ op, op ∉ Assoc.keys doc → Assoc.find? op new = Assoc.find? op old

theorem adds_conjunction {docs : Docs} (hdocs : ∀ c ∈ docs, IsOperatorDoc c.2) (field : String)
    {doc : OperatorDoc} (hdoc : IsOperatorDoc doc) :
    Adds (conjunction docs) (conjunction (docs ++ [(field, doc)])) field doc := by
  have hadded : docsByField (docs ++ [(field, doc)]) = addDoc (docsByField docs) field doc := by
    rw [docsByField, List.foldl_append]
    rfl
  have hmerged := Selection.areMerged_docsByField hdocs
  have hold : (Assoc.find? field (docsByField docs)).getD [] = [] ∨
      IsOperatorDoc ((Assoc.find? field (docsByField docs)).getD []) := by
    cases hfound : Assoc.find? field (docsByField docs) with
    | none => exact .inl rfl
    | some old => exact .inr (hmerged.docs _ (Assoc.mem_of_find?_eq_some hfound))
  refine ⟨fun key hkey => ?_, .inr ⟨(Assoc.find? field (docsByField docs)).getD [],
    Assoc.merge ((Assoc.find? field (docsByField docs)).getD []) doc, hold, ?_, ?_, ?_,
    fun op hop => ?_, fun op hop => ?_⟩⟩
  · rw [find?_conjunction, find?_conjunction, hadded, addDoc, Assoc.find?_assign,
      if_neg (by simpa using Ne.symm hkey)]
  · exact Selection.isOperatorDoc_merge hold hdoc
  · rw [find?_conjunction]
    cases hold : Assoc.find? field (docsByField docs) with
    | none => rfl
    | some old =>
      have hne : old ≠ [] := (hmerged.docs _ (Assoc.mem_of_find?_eq_some hold)).nonempty
      simp [hne]
  · rw [find?_conjunction, hadded, addDoc, Assoc.find?_assign, if_pos (by simp), Option.map_some]
  · rw [Assoc.find?_merge hdoc.nodup]
    obtain ⟨v, hv⟩ := Option.isSome_iff_exists.mp (Assoc.find?_isSome_iff.mpr hop)
    rw [hv, Option.some_or]
  · rw [Assoc.find?_merge hdoc.nodup, Assoc.find?_eq_none_iff.mpr hop, Option.none_or]

theorem Adds.withGroups {body body' : MatchBody} {field : String} {doc : OperatorDoc}
    (h : Adds body body' field doc) (groups : List (List Value)) :
    Adds (withGroups body groups) (withGroups body' groups) field doc := by
  rcases withGroups_cases groups with hnone | ⟨key, hkey, v, hsome⟩
  · rwa [hnone, hnone]
  · rw [hsome, hsome]
    refine ⟨fun k hk => ?_, ?_⟩
    · rw [Assoc.find?_assign, Assoc.find?_assign, h.others k hk]
    · rw [Assoc.find?_assign, Assoc.find?_assign]
      by_cases hfield : key = field
      · subst hfield
        exact .inl ⟨hkey, by simp⟩
      · rw [if_neg (by simpa using hfield), if_neg (by simpa using hfield)]
        exact h.here

/-- A filter with one constraint more compiles to the body with its operands. -/
theorem exists_compile_append {cs : List Constraint} {gs : List (List Filter)} {body : MatchBody}
    (hbody : compile (mk cs gs) = .ok body) {c : Constraint} {field : String} {doc : OperatorDoc}
    (hc : c.compile = .ok (field, doc)) :
    ∃ body', compile (mk (cs ++ [c]) gs) = .ok body' ∧ Adds body body' field doc := by
  rw [compile] at hbody
  obtain ⟨docs, hdocs, hbody⟩ := exists_of_bind_eq_ok hbody
  obtain ⟨groups, hgroups, hbody⟩ := exists_of_bind_eq_ok hbody
  cases hbody
  have hall : (cs ++ [c]).mapM Constraint.compile = .ok (docs ++ [(field, doc)]) :=
    mapM_eq_ok_iff.mpr (List.rel_append (mapM_eq_ok_iff.mp hdocs) (.cons hc .nil))
  refine ⟨Filter.withGroups (conjunction (docs ++ [(field, doc)])) groups, ?_,
    (adds_conjunction (Selection.isOperatorDoc_of_mem hdocs) field
      (Constraint.isOperatorDoc_of_compile hc)).withGroups groups⟩
  rw [compile, hall, hgroups]
  rfl

/-- Constraints may be reordered as long as those that clash keep their order: the filter
    compiles to the same body, or fails as before. One constraint more changes the body under
    its field only, and there only the operators that it puts. -/
theorem constraints_commute :
    (∀ {cs cs' : List Constraint} (gs : List (List Filter)), Constraint.Reorders cs cs' →
      (∀ c ∈ cs, ∃ doc, c.compile = .ok doc) →
        Agree SameBody (compile (mk cs gs)) (compile (mk cs' gs))) ∧
    ∀ {cs : List Constraint} {gs : List (List Filter)} {body : MatchBody} {c : Constraint}
      {field : String} {doc : OperatorDoc}, compile (mk cs gs) = .ok body →
        c.compile = .ok (field, doc) →
          ∃ body', compile (mk (cs ++ [c]) gs) = .ok body' ∧ Adds body body' field doc :=
  ⟨agree_of_reorders, fun hbody hc => exists_compile_append hbody hc⟩

/-- Two bounds on one field in either order, and the one added to the other. -/
theorem constraints_commute_plays :
    let above : Constraint := ⟨"plays", .greater, .int 10⟩
    let below : Constraint := ⟨"plays", .less, .int 99⟩
    Constraint.Reorders [above, below] [below, above] ∧
      Agree SameBody (compile (mk [above, below] [])) (compile (mk [below, above] [])) ∧
      ∃ body, compile (mk ([above] ++ [below]) []) = .ok body ∧
        Adds [("plays", .object [("$gt", .int 10)])] body "plays" [("$lt", .int 99)] := by
  intro above below
  have habove : Constraint.compile ⟨"plays", .greater, .int 10⟩ =
      .ok ("plays", [("$gt", .int 10)]) := rfl
  have hbelow : Constraint.compile ⟨"plays", .less, .int 99⟩ =
      .ok ("plays", [("$lt", .int 99)]) := rfl
  have hbody : compile (mk [⟨"plays", .greater, .int 10⟩] []) =
      .ok [("plays", .object [("$gt", .int 10)])] := rfl
  have happart : ¬ above.Clashes below := by
    rintro ⟨field, op, ⟨doc, hdoc, hop⟩, doc', hdoc', hop'⟩
    cases habove.symm.trans hdoc
    cases hbelow.symm.trans hdoc'
    simp [Assoc.keys] at hop hop'
    simp [hop] at hop'
  have hreorders : Constraint.Reorders [above, below] [below, above] := by
    clear_value above below
    refine ⟨Fin.revPerm, fun i => ?_, fun i j hij hclash => ?_⟩
    · obtain ⟨i, hi⟩ := i
      obtain rfl | rfl : i = 0 ∨ i = 1 := by
        simp only [List.length_cons, List.length_nil] at hi
        omega
      · rfl
      · rfl
    · obtain ⟨i, hi⟩ := i
      obtain ⟨j, hj⟩ := j
      obtain ⟨rfl, rfl⟩ : i = 0 ∧ j = 1 := by
        simp only [List.length_cons, List.length_nil, Fin.mk_lt_mk] at hi hj hij
        omega
      exact absurd hclash happart
  obtain ⟨hagree, hadds⟩ := constraints_commute
  refine ⟨hreorders, hagree [] hreorders fun c hc => ?_, hadds hbody hbelow⟩
  rcases List.mem_pair.mp hc with rfl | rfl
  · exact ⟨_, habove⟩
  · exact ⟨_, hbelow⟩

end Filter

end DocQuery
