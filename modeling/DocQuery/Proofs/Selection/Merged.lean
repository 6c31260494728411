-- SUMMARY: What is left of the constraints on a field once their operator documents are one.
import DocQuery.Filter.Basic
import DocQuery.Proofs.Constraint
import DocQuery.Proofs.Selection

/-!
# Merged operator documents

The constraints on one field are merged into one operator document, in which a later
operand of an operator takes the place of an earlier one. The merged document says what
the single documents say together, but for those that a later one overwrites: whoever
meets the merged document need not meet them.
-/

namespace DocQuery.Selection

variable (search : Value → Bool → Value → Bool)

/-! ## Operators by look-up -/

/-- Every store operator that is found holds, with the options that are found. -/
def LookupHolds (look : String → Option Value) (x : Option Value) : Prop :=
  ∀ op arg, look op = some arg → operatorHolds search (look "$options") op arg x = true

/-- Only a search reads options. -/
theorem operatorHolds_options {op : String} (h : op ≠ "$regex") (options options' : Option Value)
    (arg : Value) (x : Option Value) :
    operatorHolds search options op arg x = operatorHolds search options' op arg x := by
  unfold operatorHolds
  split <;> first | rfl | exact absurd rfl h

theorem lookupHolds_none (x : Option Value) : LookupHolds search (fun _ => none) x := by
  intro op arg h
  cases h

theorem holds_iff_lookupHolds {doc : OperatorDoc} (hne : doc ≠ [])
    (hnodup : (Assoc.keys doc).Nodup) (hlead : ∀ o ∈ doc, o.1.toList.head? = some '$')
    (x : Option Value) : holds search (.object doc) x = true ↔
      LookupHolds search (Assoc.find? · doc) x := by
  rw [holds_operators search hne hlead, List.all_eq_true]
  constructor
  · intro h op arg hfind
    exact h (op, arg) (Assoc.mem_of_find?_eq_some hfind)
  · rintro h ⟨op, arg⟩ hmem
    exact h op arg ((Assoc.find?_eq_some_iff hnodup).mpr hmem)

/-- The operands of `later` take the place of those of `look`. -/
def overriding (later look : String → Option Value) : String → Option Value :=
  fun op => (later op).or (look op)

section Overriding

variable {later look : String → Option Value}
variable (hgiven : (look "$options").isSome → (later "$regex").isSome →
  (later "$options").isSome)
variable (hbeside : (later "$options").isSome → (later "$regex").isSome)

include hgiven in
/-- A later operator keeps its operand and its options. -/
theorem operatorHolds_later {op : String} {arg : Value} (hop : later op = some arg)
    (x : Option Value) : operatorHolds search (overriding later look "$options") op arg x =
      operatorHolds search (later "$options") op arg x := by
  by_cases hregex : op = "$regex"
  · subst hregex
    cases hoptions : later "$options" with
    | some o => rw [overriding, hoptions, Option.some_or]
    | none =>
      have hnone : look "$options" = none := by
        rw [← Option.not_isSome_iff_eq_none]
        intro hsome
        have := hgiven hsome (by simp [hop])
        rw [hoptions] at this
        cases this
      rw [overriding, hoptions, hnone, Option.none_or]
  · exact operatorHolds_options search hregex _ _ arg x

include hbeside in
/-- An operator that no later one replaces keeps its operand and its options. -/
theorem operatorHolds_earlier {op : String} (hop : later op = none) (arg : Value)
    (x : Option Value) : operatorHolds search (overriding later look "$options") op arg x =
      operatorHolds search (look "$options") op arg x := by
  by_cases hregex : op = "$regex"
  · subst hregex
    have hnone : later "$options" = none := by
      rw [← Option.not_isSome_iff_eq_none]
      intro hsome
      have := hbeside hsome
      rw [hop] at this
      cases this
    rw [overriding, hnone, Option.none_or]
  · exact operatorHolds_options search hregex _ _ arg x

include hgiven hbeside in
/-- Both hold exactly when the later operators overriding the earlier ones hold, and the earlier
    ones as well if any of them was replaced. -/
theorem lookupHolds_overriding (x : Option Value) :
    (LookupHolds search (overriding later look) x ∧
      ((∃ op, (look op).isSome ∧ (later op).isSome) → LookupHolds search look x)) ↔
      LookupHolds search look x ∧ LookupHolds search later x := by
  constructor
  · rintro ⟨hover, hreplaced⟩
    constructor
    · by_cases hshared : ∃ op, (look op).isSome ∧ (later op).isSome
      · exact hreplaced hshared
      · intro op arg hop
        have hnone : later op = none := by
          rw [← Option.not_isSome_iff_eq_none]
          exact fun hsome => hshared ⟨op, by simp [hop], hsome⟩
        rw [← operatorHolds_earlier search hbeside hnone]
        exact hover op arg (by rw [overriding, hnone, hop]; rfl)
    · intro op arg hop
      rw [← operatorHolds_later search hgiven hop]
      exact hover op arg (by rw [overriding, hop]; rfl)
  · rintro ⟨hlook, hlater⟩
    refine ⟨fun op arg hop => ?_, fun _ => hlook⟩
    cases hfind : later op with
    | some arg' =>
      rw [overriding, hfind, Option.some_or, Option.some.injEq] at hop
      subst hop
      rw [operatorHolds_later search hgiven hfind]
      exact hlater op arg' hfind
    | none =>
      rw [overriding, hfind, Option.none_or] at hop
      rw [operatorHolds_earlier search hbeside hfind]
      exact hlook op arg hop

end Overriding

/-! ## Documents on one field -/

/-- Operator documents with the fields that they are on. -/
abbrev Docs := List (String × OperatorDoc)

/-- The operands on a field: of each operator the last. -/
def lookIn (field : String) : Docs → String → Option Value
  | [], _ => none
  | c :: cs, op => (lookIn field cs op).or (if c.1 == field then Assoc.find? op c.2 else none)

theorem lookIn_isSome {field op : String} {docs : Docs} :
    (lookIn field docs op).isSome ↔
      ∃ c ∈ docs, c.1 = field ∧ (Assoc.find? op c.2).isSome := by
  induction docs with
  | nil => simp [lookIn]
  | cons c cs ih =>
    rw [lookIn, Option.isSome_or, Bool.or_eq_true, ih]
    by_cases hfield : c.1 = field <;> simp [hfield, or_comm]

theorem lookIn_cons_self (c : String × OperatorDoc) (cs : Docs) :
    lookIn c.1 (c :: cs) = overriding (lookIn c.1 cs) (Assoc.find? · c.2) := by
  funext op
  simp [lookIn, overriding]

theorem lookIn_cons_ne {field : String} {c : String × OperatorDoc} (h : c.1 ≠ field) (cs : Docs) :
    lookIn field (c :: cs) = lookIn field cs := by
  funext op
  simp [lookIn, h]

/-- A later document on the field replaces an operator of the document. -/
def isOverwritten (c : String × OperatorDoc) (later : Docs) : Bool :=
  c.2.any fun o => (lookIn c.1 later o.1).isSome

/-- The documents of which an operator is replaced by a later one on their field. -/
def overwritten : Docs → Docs
  | [] => []
  | c :: cs => if isOverwritten c cs then c :: overwritten cs else overwritten cs

theorem isOverwritten_iff {c : String × OperatorDoc} {later : Docs} :
    isOverwritten c later = true ↔
      ∃ op, (Assoc.find? op c.2).isSome ∧ (lookIn c.1 later op).isSome := by
  rw [isOverwritten, List.any_eq_true]
  constructor
  · rintro ⟨o, ho, hlook⟩
    refine ⟨o.1, ?_, hlook⟩
    rw [Assoc.find?_isSome_iff]
    exact List.mem_map_of_mem ho
  · rintro ⟨op, hop, hlook⟩
    rw [Assoc.find?_isSome_iff, Assoc.keys, List.mem_map] at hop
    obtain ⟨o, ho, rfl⟩ := hop
    exact ⟨o, ho, hlook⟩

theorem mem_of_mem_overwritten {docs : Docs} {c : String × OperatorDoc}
    (h : c ∈ overwritten docs) : c ∈ docs := by
  induction docs with
  | nil => cases h
  | cons c' cs ih =>
    rw [overwritten] at h
    split at h
    · rcases List.mem_cons.mp h with rfl | h
      · exact List.mem_cons_self
      · exact List.mem_cons_of_mem c' (ih h)
    · exact List.mem_cons_of_mem c' (ih h)

/-- The document meets its field on its own. -/
def MeetsOwn (value : String → Option Value) (c : String × OperatorDoc) : Prop :=
  LookupHolds search (Assoc.find? · c.2) (value c.1)

theorem forall_overwritten_cons {P : String × OperatorDoc → Prop} {c : String × OperatorDoc}
    {cs : Docs} : (∀ c' ∈ overwritten (c :: cs), P c') ↔
      (isOverwritten c cs = true → P c) ∧ ∀ c' ∈ overwritten cs, P c' := by
  rw [overwritten]
  cases isOverwritten c cs <;> simp

/-- A search that follows one with options on its field has options as well. Otherwise it
    would take those over. -/
def OptionsKept (docs : Docs) : Prop :=
  docs.Pairwise fun c c' => c.1 = c'.1 → "$options" ∈ Assoc.keys c.2 →
    "$regex" ∈ Assoc.keys c'.2 → "$options" ∈ Assoc.keys c'.2

/-- The last operands on each field hold, and the overwritten documents as well, exactly when
    all documents hold. By induction on the documents, the first one being overwritten by all
    later ones. -/
theorem lookIn_holds_iff {docs : Docs} (hdocs : ∀ c ∈ docs, IsOperatorDoc c.2)
    (hoptions : OptionsKept docs) (value : String → Option Value) :
    ((∀ field, LookupHolds search (lookIn field docs) (value field)) ∧
      ∀ c ∈ overwritten docs, MeetsOwn search value c) ↔
      ∀ c ∈ docs, MeetsOwn search value c := by
  induction docs with
  | nil =>
    refine iff_of_true ⟨fun field => lookupHolds_none search _, fun c hc => ?_⟩ fun c hc => ?_
    · cases hc
    · cases hc
  | cons c cs ih =>
    obtain ⟨hfirst, hrest⟩ := List.pairwise_cons.mp hoptions
    have ih := ih (fun c' hc' => hdocs c' (List.mem_cons_of_mem c hc')) hrest
    have hgiven : (Assoc.find? "$options" c.2).isSome → (lookIn c.1 cs "$regex").isSome →
        (lookIn c.1 cs "$options").isSome := by
      intro hsome hlater
      obtain ⟨c', hc', hfield, hregex⟩ := lookIn_isSome.mp hlater
      rw [Assoc.find?_isSome_iff] at hsome hregex
      refine lookIn_isSome.mpr ⟨c', hc', hfield, ?_⟩
      rw [Assoc.find?_isSome_iff]
      exact hfirst c' hc' hfield.symm hsome hregex
    have hbeside : (lookIn c.1 cs "$options").isSome → (lookIn c.1 cs "$regex").isSome := by
      intro hsome
      obtain ⟨c', hc', hfield, hfound⟩ := lookIn_isSome.mp hsome
      refine lookIn_isSome.mpr ⟨c', hc', hfield, ?_⟩
      rw [Assoc.find?_isSome_iff] at hfound ⊢
      exact (hdocs c' (List.mem_cons_of_mem c hc')).options hfound
    have hover := @lookupHolds_overriding search (lookIn c.1 cs) (Assoc.find? · c.2) hgiven hbeside
      (value c.1)
    rw [← isOverwritten_iff] at hover
    rw [forall_overwritten_cons, List.forall_mem_cons, ← ih]
    constructor
    · rintro ⟨hlook, hown, hothers⟩
      have hself := hlook c.1
      rw [lookIn_cons_self] at hself
      obtain ⟨hc, hlater⟩ := hover.mp ⟨hself, hown⟩
      refine ⟨hc, fun field => ?_, hothers⟩
      by_cases hfield : c.1 = field
      · rw [← hfield]
        exact hlater
      · rw [← lookIn_cons_ne hfield]
        exact hlook field
    · rintro ⟨hc, hlook, hothers⟩
      obtain ⟨hself, hown⟩ := hover.mpr ⟨hc, hlook c.1⟩
      refine ⟨fun field => ?_, hown, hothers⟩
      by_cases hfield : c.1 = field
      · rw [← hfield, lookIn_cons_self]
        exact hself
      · rw [lookIn_cons_ne hfield]
        exact hlook field

end DocQuery.Selection
