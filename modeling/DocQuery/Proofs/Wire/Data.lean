-- SUMMARY: Wire forms and operator documents are plain data.
import DocQuery.Constraint
import DocQuery.Proofs.Json.Data

/-!
# Wire forms as plain data

Application values without floating point numbers, sets and the like have wire forms that
are plain data: pointers and dates become mappings of texts, tuples lists, and all keys
texts. So the operator documents that constraints on such values compile to are plain data
too.
-/

namespace DocQuery

open Json (IsData)
open Text (CodePoint)
open Text.CodePoint

/-- An application value that can be sent: null, truth values, whole numbers of at most `k` digits,
    texts, pointers and dates, in lists, tuples and mappings of any depth, whose keys are texts. -/
inductive Value.IsSendable (k : Nat) : Value → Prop
  | null : IsSendable k .null
  | bool (b : Bool) : IsSendable k (.bool b)
  | int (n : Int) (h : (Value.int n).digits ≤ k) : IsSendable k (.int n)
  | text (s : String) : IsSendable k (.text s)
  | brokenText (t : Text.BrokenText) (h : areApart t.points = true) : IsSendable k (.brokenText t)
  | pointer (p : Pointer) : IsSendable k (.pointer p)
  | date (d : Date) : IsSendable k (.date d)
  | datetime (t : DateTime) : IsSendable k (.datetime t)
  | list {xs : List Value} (h : ∀ x ∈ xs, IsSendable k x) : IsSendable k (.list xs)
  | tuple {xs : List Value} (h : ∀ x ∈ xs, IsSendable k x) : IsSendable k (.tuple xs)
  | map {es : List (Value × Value)} (hkeys : ∀ e ∈ es, e.1.isText = true)
    (h : ∀ e ∈ es, IsSendable k e.2) : IsSendable k (.map es)

variable {k : Nat}

/-! ## Plain data -/

namespace Json

theorem isData_ofPoints {ps : List CodePoint} (h : areApart ps = true) :
    IsData k (.ofPoints ps) := by
  unfold Value.ofPoints
  split
  · exact .brokenText _ h
  · exact .text _

theorem isData_ofPairs {fields : List (String × Value)} (h : ∀ e ∈ fields, IsData k e.2) :
    IsData k (.object (Assoc.ofPairs fields)) :=
  .object (Assoc.nodup_keys_ofPairs fields) (Assoc.forall_mem_ofPairs h)

end Json

open Json

/-! ## Wire forms -/

theorem Pointer.isData_toWire (p : Pointer) : IsData k p.toWire := by
  refine .object (by simp) ?_
  simp only [List.forall_mem_cons, List.not_mem_nil, false_imp_iff, forall_const, and_true]
  exact ⟨.text _, .text _, .text _⟩

namespace Wire

theorem isData_taggedDate (s : String) : IsData k (taggedDate (.text s)) := by
  refine .object (by simp) ?_
  simp only [List.forall_mem_cons, List.not_mem_nil, false_imp_iff, forall_const, and_true]
  exact ⟨.text _, .text _⟩

theorem isData_date {v w : Value} (h : date v = .ok w) : IsData k w := by
  obtain ⟨s, _, rfl⟩ := exists_of_map_eq_ok h
  exact isData_taggedDate s

theorem ofItems_eq_mapM (xs : List Value) : ofItems xs = xs.mapM ofValue := by
  induction xs with
  | nil => rfl
  | cons x xs ih =>
    rw [ofItems, List.mapM_cons, ih]
    rfl

theorem ofEntries_eq_mapM (es : List (Value × Value)) :
    ofEntries es = es.mapM fun e => (ofValue e.2).map fun w => (e.1.keyText, w) := by
  induction es with
  | nil => rfl
  | cons e es ih =>
    rw [ofEntries, List.mapM_cons, ih]
    cases ofValue e.2 <;> rfl

theorem isData_ofItems {xs ys : List Value} (h : ∀ x ∈ xs, ∀ w, ofValue x = .ok w → IsData k w)
    (hys : ofItems xs = .ok ys) : IsData k (.list ys) := by
  rw [ofItems_eq_mapM] at hys
  exact .list (forall_mem_of_mapM_eq_ok hys h)

/-- The wire form of a value that can be sent is plain data. -/
theorem isData_ofValue {v : Value} (hv : v.IsSendable k) : ∀ w, ofValue v = .ok w → IsData k w := by
  induction hv with
  | null =>
    rintro _ ⟨⟩
    exact .null
  | bool b =>
    rintro _ ⟨⟩
    exact .bool b
  | int n h =>
    rintro _ ⟨⟩
    exact .int n h
  | text s =>
    rintro _ ⟨⟩
    exact .text s
  | brokenText t h =>
    rintro _ ⟨⟩
    exact .brokenText t h
  | pointer p =>
    rintro _ ⟨⟩
    exact p.isData_toWire
  | date d => exact fun w => isData_date
  | datetime t => exact fun w => isData_date
  | list _ ih | tuple _ ih =>
    intro w hw
    obtain ⟨ys, hys, rfl⟩ := exists_of_map_eq_ok hw
    exact isData_ofItems ih hys
  | map _ _ ih =>
    intro w hw
    obtain ⟨fields, hfields, rfl⟩ := exists_of_map_eq_ok hw
    rw [ofEntries_eq_mapM] at hfields
    refine isData_ofPairs (forall_mem_of_mapM_eq_ok hfields fun e he f hf => ?_)
    obtain ⟨x, hx, rfl⟩ := exists_of_map_eq_ok hf
    exact ih e he x hx

end Wire

/-! ## Patterns -/

theorem startsLow_escape (ps : List CodePoint) : startsLow (Pattern.escape ps) = startsLow ps := by
  cases ps with
  | nil => rfl
  | cons p ps =>
    cases p with
    | char c =>
      rw [Pattern.escape, List.flatMap_cons, Pattern.escapePoint, Pattern.escapeChar, startsLow_char]
      split <;> exact startsLow_char ..
    | surrogate n => rfl

/-- Escaping puts nothing between surrogates, and makes no new neighbours of them. -/
theorem areApart_escape (ps : List CodePoint) : areApart (Pattern.escape ps) = areApart ps := by
  induction ps with
  | nil => rfl
  | cons p ps ih =>
    cases p with
    | char c =>
      rw [Pattern.escape, List.flatMap_cons, Pattern.escapePoint, Pattern.escapeChar, areApart_char,
        ← ih, ← Pattern.escape]
      split <;> simp
    | surrogate n =>
      show areApart (.surrogate n :: Pattern.escape ps) = _
      rw [areApart, areApart, ih, startsLow_escape]

namespace Constraint

/-- A document in which every operand is plain data. -/
def IsDataDoc (k : Nat) (doc : OperatorDoc) : Prop :=
  ∀ e ∈ doc, IsData k e.2

theorem isDataDoc_single {v : Value} (hv : IsData k v) (op : String) : IsDataDoc k [(op, v)] :=
  List.forall_mem_singleton.mpr hv

theorem isDataDoc_pair {v w : Value} (hv : IsData k v) (hw : IsData k w) (op op' : String) :
    IsDataDoc k [(op, v), (op', w)] :=
  List.forall_mem_cons.mpr ⟨hv, isDataDoc_single hw op'⟩

theorem isData_dateBound {v w : Value} (h : dateBound v = .ok w) : IsData k w := by
  obtain ⟨t, _, hw⟩ := exists_of_bind_eq_ok h
  exact Wire.isData_date hw

theorem isDataDoc_literalDoc {ps : List CodePoint} (h : areApart ps = true) (lead trail : String) :
    IsDataDoc k (literalDoc lead ps trail) := by
  refine isDataDoc_single (isData_ofPoints ?_) "$regex"
  rw [areApart_append_ofText, areApart_ofText_append, areApart_escape, h]

theorem isDataDoc_textDoc {op : Operator} {v : Value} (hv : v.IsSendable k) {doc : OperatorDoc}
    (h : textDoc op v = .ok doc) : IsDataDoc k doc := by
  have hpoints : ∀ ps, v.points? = some ps →
      areApart ps = true ∧ IsData k (Pattern.source v) := by
    clear h
    intro ps hps
    cases hv <;> cases hps
    case text s => exact ⟨areApart_ofText s, .text _⟩
    case brokenText t ht => exact ⟨ht, .brokenText t ht⟩
  unfold textDoc at h
  split at h
  · cases hv
  · split at h
    · cases h
    · rename_i ps hps
      obtain ⟨hapart, hsource⟩ := hpoints ps hps
      split at h
      · obtain ⟨_, _, rfl⟩ := exists_of_map_eq_ok h
        exact isDataDoc_single hsource _
      · split at h
        · cases h
        · split at h <;> cases h
          · exact List.forall_mem_append.mpr
              ⟨isDataDoc_literalDoc hapart _ _, isDataDoc_single (.text _) _⟩
          · exact isDataDoc_literalDoc hapart _ _
          · exact isDataDoc_literalDoc hapart _ _

/-- The operands of a constraint on a value that can be sent are plain data. -/
theorem isDataDoc_operatorDoc {op : Operator} {v : Value} (hv : v.IsSendable k) {doc : OperatorDoc}
    (h : operatorDoc op v = .ok doc) : IsDataDoc k doc := by
  have hmembers : ∀ xs, collection? v = some xs → ∀ x ∈ xs, x.IsSendable k := by
    clear h
    intro xs hxs
    cases hv <;> cases hxs
    case list h => exact h
    case tuple h => exact h
  have hpair : ∀ low high, pair? v = some (low, high) → low.IsSendable k ∧ high.IsSendable k := by
    intro low high hpair
    unfold pair? at hpair
    split at hpair <;> cases hpair
    all_goals exact ⟨hmembers _ rfl _ (by simp), hmembers _ rfl _ (by simp)⟩
  unfold operatorDoc at h
  split at h
  · obtain ⟨w, hw, rfl⟩ := exists_of_map_eq_ok h
    exact isDataDoc_single (Wire.isData_ofValue hv w hw) _
  · split at h
    · rename_i xs hxs
      obtain ⟨ws, hws, rfl⟩ := exists_of_map_eq_ok h
      refine isDataDoc_single (Wire.isData_ofItems (fun x hx => ?_) hws) _
      exact Wire.isData_ofValue (hmembers xs hxs x hx)
    · cases h
  · obtain ⟨w, hw, rfl⟩ := exists_of_map_eq_ok h
    exact isDataDoc_single (isData_dateBound hw) _
  · split at h
    · cases h
      exact isDataDoc_single (.bool _) _
    · cases h
    · split at h
      · rename_i low high hends
        obtain ⟨hlow, hhigh⟩ := hpair low high hends
        obtain ⟨l, hl, h⟩ := exists_of_bind_eq_ok h
        obtain ⟨r, hr, h⟩ := exists_of_bind_eq_ok h
        cases h
        exact isDataDoc_pair (Wire.isData_ofValue hlow l hl) (Wire.isData_ofValue hhigh r hr) _ _
      · cases h
    · split at h
      · obtain ⟨l, hl, h⟩ := exists_of_bind_eq_ok h
        obtain ⟨r, hr, h⟩ := exists_of_bind_eq_ok h
        cases h
        exact isDataDoc_pair (isData_dateBound hl) (isData_dateBound hr) _ _
      · cases h
    · exact isDataDoc_textDoc hv h

/-- A constraint on a value that can be sent compiles to plain data. -/
theorem isDataDoc_compile {c : Constraint} (hc : c.value.IsSendable k) {doc : String × OperatorDoc}
    (h : c.compile = .ok doc) : IsDataDoc k doc.2 := by
  unfold compile at h
  split at h
  · rename_i hdoc
    cases h
    exact isDataDoc_operatorDoc hc hdoc
  · cases h

end Constraint

end DocQuery
