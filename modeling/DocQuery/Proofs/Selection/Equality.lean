-- SUMMARY: When a field's lone equality selects the same documents as the equality written out.
import DocQuery.Proofs.FieldName.Spelling
import DocQuery.Proofs.Selection.Filter

/-!
# Selection by a lone equality

A field that has to equal one value, and nothing else, has that value stand in the body in
place of the equality. The value then is what a reader of the body finds under the field. It
is read as operators when all its keys are named like operators, and as a value otherwise:
keys further inside are never looked at.
-/

namespace DocQuery.Selection

open Encoding (isLogical)

variable (search : Value → Bool → Value → Bool)

/-! ## Keys named like operators -/

/-- A reserved key is named like no operator, under its text or as it is displayed. -/
theorem head?_keyText (k : Value) :
    k.keyText.toList.head? = some '$' ↔ k.display.toList.head? = some '$' := by
  cases k with
  | tagKey k => cases k <;> simp [Value.keyText, Value.display, TagKey.text]
  | _ => exact Iff.rfl

theorem areOperators_iff {es : List (Value × Value)} : areOperators es = true ↔
    es ≠ [] ∧ ∀ e ∈ es, e.1.keyText.toList.head? = some '$' := by
  simp only [areOperators, Bool.and_eq_true, Bool.not_eq_true', List.isEmpty_eq_false_iff,
    List.all_eq_true, beq_iff_eq, head?_keyText]

theorem areOperators_object_iff {fields : List (String × Value)} :
    areOperators (fields.map fun (k, v) => (Value.text k, v)) = true ↔
      fields ≠ [] ∧ ∀ key ∈ Assoc.keys fields, key.toList.head? = some '$' := by
  rw [areOperators_iff, Assoc.keys, List.forall_mem_map, List.forall_mem_map]
  simp [Value.keyText, Value.display]

theorem ne_nil_iff_exists_key {fields : List (String × Value)} :
    fields ≠ [] ↔ ∃ key, key ∈ Assoc.keys fields := by
  cases fields <;> simp [Assoc.keys]

theorem areOperators_ofPairs {fields : List (String × Value)} :
    areOperators ((Assoc.ofPairs fields).map fun (k, v) => (Value.text k, v)) =
      areOperators (fields.map fun (k, v) => (Value.text k, v)) := by
  have hempty : Assoc.ofPairs fields ≠ [] ↔ fields ≠ [] := by
    rw [ne_nil_iff_exists_key, ne_nil_iff_exists_key]
    exact exists_congr fun key => Assoc.mem_keys_ofPairs
  rw [Bool.eq_iff_iff, areOperators_object_iff, areOperators_object_iff, hempty]
  simp only [Assoc.mem_keys_ofPairs]

/-! ## Wire forms -/

theorem keys_ofEntries {es : List (Value × Value)} {fields : List (String × Value)}
    (h : Wire.ofEntries es = .ok fields) : Assoc.keys fields = es.map fun e => e.1.keyText := by
  induction es generalizing fields with
  | nil =>
    cases h
    rfl
  | cons e es ih =>
    obtain ⟨k, v⟩ := e
    rw [Wire.ofEntries] at h
    obtain ⟨w, _, h⟩ := exists_of_bind_eq_ok h
    obtain ⟨ws, hws, h⟩ := exists_of_bind_eq_ok h
    cases h
    rw [Assoc.keys_cons, ih hws, List.map_cons]

theorem not_readsAsOperators_date {v w : Value} (h : Wire.date v = .ok w) :
    readsAsOperators w = false := by
  obtain ⟨iso, _, rfl⟩ := exists_of_map_eq_ok h
  rfl

/-- The wire form of a value reads as operators when the value does. -/
theorem readsAsOperators_ofValue {v w : Value} (h : Wire.ofValue v = .ok w) :
    readsAsOperators w = readsAsOperators v := by
  cases v with
  | pointer p =>
    cases h
    rfl
  | datetime t => exact not_readsAsOperators_date h
  | date d => exact not_readsAsOperators_date h
  | map es =>
    obtain ⟨fields, hfields, rfl⟩ := exists_of_map_eq_ok h
    have hkeys := keys_ofEntries hfields
    show areOperators _ = areOperators es
    have hempty : fields ≠ [] ↔ es ≠ [] := by
      rw [ne_nil_iff_exists_key, hkeys]
      cases es <;> simp
    rw [areOperators_ofPairs, Bool.eq_iff_iff, areOperators_object_iff, areOperators_iff, hkeys,
      List.forall_mem_map, hempty]
  | list xs =>
    obtain ⟨ws, _, rfl⟩ := exists_of_map_eq_ok h
    rfl
  | tuple xs =>
    obtain ⟨ws, _, rfl⟩ := exists_of_map_eq_ok h
    rfl
  | _ =>
    cases h
    rfl

/-! ## The body -/

/-- The body of one equality has the wire form of the value under the wire field. -/
theorem compile_equality {s : FilterStore} {id : FilterId} {field : String} {v w : Value}
    (hcell : s.get id = ⟨[⟨field, .equal, v⟩], []⟩) (hv : Wire.ofValue v = .ok w) :
    s.compile id = .ok [(FieldName.wire (.text field), w)] := by
  show s.compile id = .ok (Filter.conjunction [(FieldName.wire (.text field), [("$eq", w)])])
  refine FilterStore.compile_of_constraints hcell ?_
  have hop : Constraint.operatorDoc .equal v = .ok [("$eq", w)] := by
    simp only [Constraint.operatorDoc, Constraint.comparison?, hv]
    rfl
  rw [List.mapM_cons, Constraint.compile, hop]
  rfl

theorem selects_field (doc : Value) {field : String} (h : field.toList.head? ≠ some '$')
    (v : Value) : selects search doc (.object [(field, v)]) = holds search v (at? doc field) := by
  have hlogical : isLogical field = false := by
    rw [← Bool.not_eq_true]
    intro htrue
    simp only [isLogical, List.contains_eq_mem, List.mem_cons, List.not_mem_nil, or_false,
      decide_eq_true_eq] at htrue
    rcases htrue with rfl | rfl | rfl <;> exact h rfl
  rw [selects_object, List.all_cons, List.all_nil, Bool.and_true]
  simp only [entryHolds, hlogical]
  rfl

/-- An equality that is written out looks at no key of the value. -/
theorem holds_written (w : Value) (x : Option Value) :
    holds search (.object [("$eq", w)]) x = x.any (equals · w) := by
  rw [holds_operators search (List.cons_ne_nil _ _) (by simp)]
  simp [operatorHolds]

/-- A field that has to equal a value, and nothing else, selects what the equality written out
    selects, unless the value is a mapping all of whose keys are named like operators. Those
    keys, and no others, act as operators: the field then has to meet each of them. -/
theorem equality_selects_iff {s : FilterStore} {id : FilterId} {field : String} {v w : Value}
    (hcell : s.get id = ⟨[⟨field, .equal, v⟩], []⟩) (hfield : field.toList.head? ≠ some '$')
    (hv : Wire.ofValue v = .ok w) : ∃ body, s.compile id = .ok body ∧
      (readsAsOperators v = false → ∀ doc : Value, selects search doc (.object body) =
        selects search doc (.object [(FieldName.wire (.text field), .object [("$eq", w)])])) ∧
      (readsAsOperators v = true → ∃ ops : List (String × Value), w = .object ops ∧
        ∀ doc : Value, selects search doc (.object body) = ops.all fun (op, arg) =>
          operatorHolds search (Assoc.find? "$options" ops) op arg
            (at? doc (FieldName.wire (.text field)))) := by
  have hname := FieldName.head?_wire hfield
  have hreads := readsAsOperators_ofValue hv
  refine ⟨_, compile_equality hcell hv, fun hvalue doc => ?_, fun hops => ?_⟩
  · rw [hvalue] at hreads
    rw [selects_field search doc hname, selects_field search doc hname, holds_written,
      holds_of_not_readsAsOperators search hreads]
  · rw [hops] at hreads
    -- only a mapping reads as operators, and the wire form of one has texts as keys
    cases v with
    | map es =>
      obtain ⟨fields, _, rfl⟩ := exists_of_map_eq_ok hv
      obtain ⟨hne, hlead⟩ := areOperators_object_iff.mp hreads
      refine ⟨_, rfl, fun doc => ?_⟩
      rw [selects_field search doc hname, holds_operators search hne fun o ho =>
        hlead o.1 (List.mem_map_of_mem ho)]
    | _ => cases hops

/-- A mapping whose keys are no operators, compared with as a whole. -/
theorem equality_selects_iff_mapping :
    let s : FilterStore := ⟨[⟨[⟨"cover_art", .equal,
      .object [("width", .int 3), ("$ne", .int 1)]⟩], []⟩]⟩
    s.get 0 = ⟨[⟨"cover_art", .equal, .object [("width", .int 3), ("$ne", .int 1)]⟩], []⟩ ∧
      "cover_art".toList.head? ≠ some '$' ∧
      Wire.ofValue (.object [("width", .int 3), ("$ne", .int 1)]) =
        .ok (.object [("width", .int 3), ("$ne", .int 1)]) ∧
      readsAsOperators (.object [("width", .int 3), ("$ne", .int 1)]) = false ∧
      ∃ body, s.compile 0 = .ok body ∧ ∀ doc : Value,
        selects (fun _ _ _ => false) doc (.object body) = selects (fun _ _ _ => false) doc
          (.object [("coverArt", .object [("$eq", .object [("width", .int 3),
            ("$ne", .int 1)])])]) := by
  intro s
  have hcell : s.get 0 =
      ⟨[⟨"cover_art", .equal, .object [("width", .int 3), ("$ne", .int 1)]⟩], []⟩ := rfl
  have hfield : "cover_art".toList.head? ≠ some '$' := by decide
  have hv : Wire.ofValue (.object [("width", .int 3), ("$ne", .int 1)]) =
      .ok (.object [("width", .int 3), ("$ne", .int 1)]) := rfl
  have hreads : readsAsOperators (.object [("width", .int 3), ("$ne", .int 1)]) = false := rfl
  have hwire : FieldName.wire (.text "cover_art") = "coverArt" := by decide
  obtain ⟨body, hbody, hvalue, _⟩ := equality_selects_iff (fun _ _ _ => false) hcell hfield hv
  rw [hwire] at hvalue
  exact ⟨hcell, hfield, hv, hreads, body, hbody, hvalue hreads⟩

/-- A field that has to equal a mapping with the one key `$ne` has to differ from what stands
    under that key. -/
theorem operators_in_equality :
    let s : FilterStore := ⟨[⟨[⟨"plays", .equal, .object [("$ne", .int 1)]⟩], []⟩]⟩
    s.Built ∧ ∃ body w, s.compile 0 = .ok body ∧
      Wire.ofValue (.object [("$ne", .int 1)]) = .ok w ∧
      selects (fun _ _ _ => false) (.object [("plays", .int 2)]) (.object body) = true ∧
      selects (fun _ _ _ => false) (.object [("plays", .int 2)])
        (.object [("plays", .object [("$eq", w)])]) = false := by
  intro s
  have hnew : FilterStore.Built ⟨[.empty]⟩ := .new .empty
  have hadd : FilterStore.add ⟨[.empty]⟩ 0 (.text "plays") (.text "eq")
      (.object [("$ne", .int 1)]) = .ok s := rfl
  exact ⟨.add hnew hadd, _, _, rfl, rfl, rfl, rfl⟩

end DocQuery.Selection
