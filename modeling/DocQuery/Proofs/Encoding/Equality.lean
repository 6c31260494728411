-- SUMMARY: When an equality is encoded alike on its own and beside another condition on its field.
import DocQuery.Proofs.Encoding.Settled
import DocQuery.Proofs.FieldName.Spelling
import DocQuery.Proofs.Selection.Equality

/-!
# Encoded equalities

An equality on its own stands in a body as the value to be equal to. Beside another condition
on its field it stands under `$eq`. Both times the encoder looks for pointers in what it finds
under the field and one step inside. So one of the two bodies shows it a pointer inside the
value and the other does not, and it then names the field differently. It also takes the
entries of a mapping that stands alone for operators, and gives plain ids in their lists a
class. In every other value nothing depends on where the equality stands.
-/

namespace DocQuery

/-! ## Outcomes that agree but for some -/

/-- Both succeed or both fail. Their results are the same unless they are said to differ. -/
structure AgreeUnless {α : Type} (differ : Bool) (x y : Except Error α) : Prop where
  succeed : (∃ a, x = .ok a) ↔ ∃ b, y = .ok b
  same : ∀ a b, x = .ok a → y = .ok b → (a = b ↔ differ = false)

namespace AgreeUnless

variable {α β : Type}

theorem refl (x : Except Error α) : AgreeUnless false x x := by
  refine ⟨Iff.rfl, fun a b ha hb => ?_⟩
  rw [ha] at hb
  exact iff_of_true (Except.ok.inj hb) rfl

theorem of_not {differ : Bool} {x y : Except Error α} (hx : ¬∃ a, x = .ok a)
    (hy : ¬∃ b, y = .ok b) : AgreeUnless differ x y :=
  ⟨iff_of_false hx hy, fun a _ ha _ => absurd ⟨a, ha⟩ hx⟩

theorem map {differ : Bool} {x y : Except Error α} (h : AgreeUnless differ x y) {f : α → β}
    (hf : ∀ a b, x = .ok a → y = .ok b → f a = f b → a = b) :
    AgreeUnless differ (x.map f) (y.map f) := by
  refine ⟨?_, fun a' b' ha' hb' => ?_⟩
  · rw [exists_map_eq_ok_iff, exists_map_eq_ok_iff]
    exact h.succeed
  · obtain ⟨a, ha, rfl⟩ := exists_of_map_eq_ok ha'
    obtain ⟨b, hb, rfl⟩ := exists_of_map_eq_ok hb'
    rw [← h.same a b ha hb]
    exact ⟨hf a b ha hb, congrArg f⟩

/-- Walks over one list differ when some steps do. -/
theorem mapM {ι : Type} {differ : ι → Bool} {f g : ι → Except Error α} {xs : List ι}
    (h : ∀ x ∈ xs, AgreeUnless (differ x) (f x) (g x)) :
    AgreeUnless (xs.any differ) (xs.mapM f) (xs.mapM g) := by
  refine ⟨?_, fun ys zs hys hzs => ?_⟩
  · rw [exists_mapM_eq_ok_iff, exists_mapM_eq_ok_iff]
    exact forall₂_congr fun x hx => (h x hx).succeed
  · rw [mapM_eq_ok_iff] at hys hzs
    induction hys generalizing zs with
    | nil =>
      cases hzs
      exact iff_of_true rfl rfl
    | @cons x y xs ys hy hys ih =>
      cases hzs with
      | @cons _ z _ zs hz hzs =>
        obtain ⟨hhead, hrest⟩ := List.forall_mem_cons.mp h
        rw [List.cons.injEq, List.any_cons, Bool.or_eq_false_iff, hhead.same y z hy hz,
          ih hrest zs hzs]

end AgreeUnless

namespace Encoding

variable {target : Target}

/-! ## Classes for plain ids -/

/-- The value is a text that is no compact pointer. -/
def isPlainId (v : Value) : Bool :=
  v.isText && (v.text?.bind Pointer.ofCompact?).isNone

/-- Among the items there is a pointer, and a plain id that takes its class. -/
def lendsClass (xs : List Value) : Bool :=
  xs.any Value.isPointer && xs.any isPlainId

/-- A text is none of the texts that end with it and are longer. -/
theorem classed_ne (className : String) {x : Value} (hx : x.text?.isSome) :
    Value.text (className ++ "$" ++ x.display) ≠ x := by
  cases x with
  | text s =>
    intro h
    have hlength := congrArg String.length (Value.text.inj h)
    simp [Value.display] at hlength
  | tagKey k =>
    intro h
    cases h
  | _ => cases hx

theorem classed_broken_ne (className : String) (t : Text.BrokenText) :
    Value.ofPoints (Text.CodePoint.ofText (className ++ "$") ++ t.points) ≠ .brokenText t := by
  unfold Value.ofPoints
  split
  · intro h
    have hpoints := congrArg Text.BrokenText.points (Value.brokenText.inj h)
    have hlength := congrArg List.length hpoints
    simp only [List.length_append, Text.CodePoint.ofText, List.length_map, String.toList_append]
      at hlength
    have hdollar : "$".toList.length = 1 := rfl
    omega
  · intro h
    cases h

/-- A plain id takes a class where there is one, and every other item is a value on its own. -/
theorem member_agreeUnless (common : Option String) (x : Value) :
    AgreeUnless (common.isSome && isPlainId x) (member target common x) (value target x) := by
  cases common with
  | none => exact .refl _
  | some className =>
    rw [Option.isSome_some, Bool.true_and]
    by_cases hplain : isPlainId x = true
    · obtain ⟨htext, hcompact⟩ := Bool.and_eq_true_iff.mp hplain
      have hvalue : value target x = .ok x := (Value.isScalar_of_isText htext).encode target
      obtain ⟨y, hy, hne⟩ : ∃ y, member target (some className) x = .ok y ∧ y ≠ x := by
        have hnone : ∀ {s}, (Pointer.ofCompact? s).isNone = true →
            ¬(Pointer.ofCompact? s).isSome = true := by
          intro s hs
          rw [← Option.not_isNone, hs]
          exact Bool.false_ne_true
        cases x with
        | brokenText t => exact ⟨_, rfl, classed_broken_ne className t⟩
        | text s => exact ⟨_, if_neg (hnone hcompact), classed_ne className rfl⟩
        | tagKey k => exact ⟨_, if_neg (hnone hcompact), classed_ne className rfl⟩
        | _ => cases htext
      rw [hplain, hvalue, hy]
      refine ⟨iff_of_true ⟨y, rfl⟩ ⟨x, rfl⟩, ?_⟩
      rintro a b ⟨⟩ ⟨⟩
      exact iff_of_false hne Bool.true_eq_false.mp
    · have hmember : member target (some className) x = value target x := by
        cases x with
        | brokenText t => exact absurd rfl hplain
        | text s =>
          refine if_pos ?_
          rw [← Option.not_isNone, Bool.not_eq_true']
          exact Bool.eq_false_iff.mpr hplain
        | tagKey k => cases k <;> exact absurd rfl hplain
        | _ => rfl
      rw [hmember, Bool.eq_false_iff.mpr hplain]
      exact .refl _

theorem value_list (xs : List Value) :
    value target (.list xs) = (xs.mapM (value target)).map .list := by
  rw [value, items_eq_mapM]

theorem membership_agreeUnless (xs : List Value) :
    AgreeUnless (lendsClass xs) (membership target xs) (value target (.list xs)) := by
  rw [value_list]
  by_cases hitems : ∀ x ∈ xs, ∃ y, value target x = .ok y
  · obtain ⟨common, hcommon, hpointer⟩ := exists_commonClass? hitems
    have hdiffer : lendsClass xs = xs.any fun x => common.isSome && isPlainId x := by
      rw [lendsClass, ← hpointer]
      cases common.isSome <;> simp
    have hmembership : membership target xs = (xs.mapM (member target common)).map .list := by
      rw [membership, hcommon]
      rfl
    rw [hdiffer, hmembership]
    exact (AgreeUnless.mapM fun x _ => member_agreeUnless common x).map
      fun _ _ _ _ => Value.list.inj
  · refine .of_not ?_ ?_
    · rintro ⟨w, hw⟩
      obtain ⟨common, _, hw⟩ := exists_of_bind_eq_ok hw
      obtain ⟨ys, hys, _⟩ := exists_of_map_eq_ok hw
      refine hitems fun x hx => (member_agreeUnless common x).succeed.mp ?_
      exact exists_mapM_eq_ok_iff.mp ⟨ys, hys⟩ x hx
    · rintro ⟨w, hw⟩
      obtain ⟨ys, hys, _⟩ := exists_of_map_eq_ok hw
      exact hitems (exists_mapM_eq_ok_iff.mp ⟨ys, hys⟩)

/-! ## Operands -/

/-- Under the operator stands a list in which a pointer lends its class. -/
def lendsUnder (op : String) (v : Value) : Bool :=
  isMembership op && v.sequence?.any lendsClass

/-- The value is a mapping, and under a name of an operator in it a pointer lends its class. -/
def lendsInside (v : Value) : Bool :=
  match v with
  | .map es => !(v.isPointer || v.isDate) && es.any fun (k, x) => lendsUnder k.keyText x
  | _ => false

theorem operatorOperand_agreeUnless (op : String) (v : Value) :
    AgreeUnless (lendsUnder op v) (operatorOperand target op v) (value target v) := by
  unfold operatorOperand lendsUnder
  split
  · rename_i xs hmembership hsequence
    rw [hmembership, hsequence, Bool.true_and]
    cases v with
    | list ys =>
      cases hsequence
      exact membership_agreeUnless xs
    | tuple ys =>
      cases hsequence
      exact membership_agreeUnless xs
    | _ => cases hsequence
  · rename_i hnot
    have hnone : (isMembership op && v.sequence?.any lendsClass) = false := by
      cases hop : isMembership op with
      | false => rfl
      | true =>
        cases hxs : v.sequence? with
        | none => rfl
        | some xs => exact absurd hxs (hnot xs hop)
    rw [hnone]
    exact .refl _

theorem keys_of_entries (step : String → Value → Except Error Value)
    {es : List (Value × Value)} {fields : List (String × Value)}
    (h : (es.mapM fun e => (step e.1.keyText e.2).map fun w => (e.1.keyText, w)) = .ok fields) :
    Assoc.keys fields = es.map fun e => e.1.keyText := by
  refine (map_eq_map_of_forall₂ (mapM_eq_ok_iff.mp h) fun e f hf => ?_).symm
  obtain ⟨w, _, rfl⟩ := exists_of_map_eq_ok hf
  rfl

/-- An operand is a value but for the classes that pointers lend in it. -/
theorem operand_agreeUnless {w : Value}
    (hkeys : ∀ es, w.entries? = some es → (es.map fun e => e.1.keyText).Nodup) :
    AgreeUnless (lendsInside w) (operand target w) (value target w) := by
  cases w with
  | map es =>
    cases htagged : (Value.map es).isPointer || (Value.map es).isDate with
    | true =>
      rw [operand, if_pos htagged, lendsInside, htagged]
      exact .refl _
    | false =>
      obtain ⟨hpointer, hdate⟩ := Bool.or_eq_false_iff.mp htagged
      rw [operand_map hpointer hdate, value_map hpointer hdate, lendsInside, htagged]
      refine (AgreeUnless.mapM fun e _ =>
        (operatorOperand_agreeUnless e.1.keyText e.2).map fun _ _ _ _ h => (Prod.mk.inj h).2).map ?_
      intro fs gs hfs hgs heq
      have hnodup := hkeys es rfl
      rw [← keys_of_entries (operatorOperand target) hfs] at hnodup
      have hnodup' := hkeys es rfl
      rw [← keys_of_entries (fun _ => value target) hgs] at hnodup'
      have hobjects := Value.object_injective heq
      rwa [Assoc.ofPairs_of_nodup hnodup, Assoc.ofPairs_of_nodup hnodup'] at hobjects
  | _ => exact .refl _

/-! ## Names -/

/-- The value is no pointer, and a pointer stands one step inside: in a list, in a mapping, or
    in a list in a mapping. -/
def hasInnerPointer (v : Value) : Bool :=
  match v with
  | .list xs => xs.any Value.isPointer
  | .tuple xs => xs.any Value.isPointer
  | .map es => !(v.isPointer || v.isDate) && es.any fun (_, x) => hasPointerAtTop x
  | _ => false

/-- Under `$eq` a pointer is looked for in the items of a value, and on its own in the entries
    and the items there. -/
theorem holdsPointer_eq_iff (w : Value) :
    holdsPointer w = hasPointerAtTop w ↔ hasInnerPointer w = false := by
  cases w with
  | map es =>
    have htop : hasPointerAtTop (.map es) = (Value.map es).isPointer := Bool.or_false _
    rw [htop, holdsPointer, hasInnerPointer]
    cases (Value.map es).isPointer with
    | true => simp
    | false =>
      rw [Bool.false_or, Bool.false_or]
      rfl
  | list xs =>
    show false = xs.any Value.isPointer ↔ xs.any Value.isPointer = false
    exact eq_comm
  | tuple xs =>
    show false = xs.any Value.isPointer ↔ xs.any Value.isPointer = false
    exact eq_comm
  | _ => exact iff_of_true rfl rfl

/-- The operand of an equality beside another condition. -/
def written (w : Value) (b : Bool) : Value :=
  .object [("$eq", w), ("$exists", .bool b)]

theorem holdsPointer_written (w : Value) (b : Bool) :
    holdsPointer (written w b) = hasPointerAtTop w := by
  show (hasPointerAtTop w || (hasPointerAtTop (.bool b) || false)) = _
  rw [Bool.or_eq_left_iff_imp]
  exact nofun

theorem clauseName_eq_iff {key : String} (h : FieldName.hasMark FieldName.pointerMark key = false)
    (v w : Value) :
    clauseName target key v = clauseName target key w ↔ holdsPointer v = holdsPointer w := by
  have hne : ∀ {x y : Value}, holdsPointer x = true → holdsPointer y = false →
      clauseName target key x ≠ clauseName target key y := by
    intro x y hx hy
    simp only [clauseName, hx, hy, if_true, Bool.false_eq_true, if_false]
    cases target with
    | remote => exact (FieldName.pointerColumn_ne_toStorage h).1
    | storage => exact (FieldName.pointerColumn_ne_toStorage h).2
  cases hv : holdsPointer v <;> cases hw : holdsPointer w
  · simp [clauseName, hv, hw]
  · exact iff_of_false (hne hw hv).symm Bool.false_ne_true
  · exact iff_of_false (hne hv hw) Bool.false_ne_true.symm
  · simp [clauseName, hv, hw]

/-! ## Bodies -/

theorem nodup_keys_ofValue {v w : Value} (h : Wire.ofValue v = .ok w) :
    ∀ es, w.entries? = some es → (es.map fun e => e.1.keyText).Nodup := by
  have hobject : ∀ {fields : List (String × Value)}, (Assoc.keys fields).Nodup →
      ∀ es, (Value.object fields).entries? = some es → (es.map fun e => e.1.keyText).Nodup := by
    rintro fields hnodup es ⟨⟩
    rw [List.map_map]
    exact hnodup
  have hdate : ∀ {u : Value}, Wire.date u = .ok w →
      ∀ es, w.entries? = some es → (es.map fun e => e.1.keyText).Nodup := by
    intro u hu
    obtain ⟨iso, _, rfl⟩ := exists_of_map_eq_ok hu
    exact hobject (by simp)
  cases v with
  | pointer p =>
    cases h
    exact hobject (by simp)
  | date d => exact hdate h
  | datetime t => exact hdate h
  | map es =>
    obtain ⟨fields, _, rfl⟩ := exists_of_map_eq_ok h
    exact hobject (Assoc.nodup_keys_ofPairs fields)
  | list xs =>
    obtain ⟨ws, _, rfl⟩ := exists_of_map_eq_ok h
    exact nofun
  | tuple xs =>
    obtain ⟨ws, _, rfl⟩ := exists_of_map_eq_ok h
    exact nofun
  | _ =>
    cases h
    exact nofun

/-- The body of an equality beside another condition on its field. -/
theorem compile_written {s : FilterStore} {id : FilterId} {field : String} {v w : Value}
    {b : Bool} (hcell : s.get id = ⟨[⟨field, .equal, v⟩, ⟨field, .present, .bool b⟩], []⟩)
    (hv : Wire.ofValue v = .ok w) :
    s.compile id = .ok [(FieldName.wire (.text field), written w b)] := by
  have hequal : Constraint.operatorDoc .equal v = .ok [("$eq", w)] := by
    simp only [Constraint.operatorDoc, Constraint.comparison?, hv]
    rfl
  have hdocs : [(⟨field, .equal, v⟩ : Constraint), ⟨field, .present, .bool b⟩].mapM
      Constraint.compile = .ok [(FieldName.wire (.text field), [("$eq", w)]),
        (FieldName.wire (.text field), [("$exists", .bool b)])] := by
    rw [List.mapM_cons, Constraint.compile, hequal]
    rfl
  rw [FilterStore.compile_of_constraints hcell hdocs]
  simp [Filter.conjunction, Filter.docsByField, Filter.addDoc, Assoc.assign, Assoc.find?,
    Assoc.merge, Filter.operand, written]

/-- Beside another condition the value of an equality is encoded as a value. -/
theorem operand_written {w : Value} (b : Bool) :
    operand target (written w b) = (value target w).map fun x => written x b := by
  rw [written, Value.object, operand_map rfl rfl]
  simp only [List.map_cons, List.map_nil, List.mapM_cons, List.mapM_nil]
  show (do
    let f ← (value target w).map fun x => ("$eq", x)
    .ok [f, ("$exists", .bool b)] : Except Error (List (String × Value))).map _ = _
  cases value target w <;> rfl

/-- An equality on its own and beside another condition: both bodies are encoded or none is.
    The field is named alike exactly when no pointer stands one step inside the value, and the
    value is encoded alike exactly when no pointer in it lends its class. -/
theorem equality_encoded_alike_iff {s : FilterStore} {alone beside : FilterId} {field : String}
    {v w : Value} (halone : s.get alone = ⟨[⟨field, .equal, v⟩], []⟩)
    (hbeside : s.get beside = ⟨[⟨field, .equal, v⟩, ⟨field, .present, .bool true⟩], []⟩)
    (hfield : field.toList.head? ≠ some '$')
    (hmark : FieldName.hasMark FieldName.pointerMark field = false)
    (hv : Wire.ofValue v = .ok w) (target : Target) :
    ∃ body body', s.compile alone = .ok body ∧ s.compile beside = .ok body' ∧
      ((∃ e, matchBody target (.object body) = .ok e) ↔
        ∃ e, matchBody target (.object body') = .ok e) ∧
      ∀ e e', matchBody target (.object body) = .ok e →
        matchBody target (.object body') = .ok e' →
        ∃ name name' x x', e = .object [(name, x)] ∧
          e' = .object [(name', .object [("$eq", x'), ("$exists", .bool true)])] ∧
          (name = name' ↔ hasInnerPointer w = false) ∧ (x = x' ↔ lendsInside w = false) := by
  have hlead := FieldName.head?_wire hfield
  have hname := FieldName.hasMark_wire hmark
  have hencoded : AgreeUnless (lendsInside w) (operand target w) (value target w) :=
    operand_agreeUnless (nodup_keys_ofValue hv)
  have hclause : ∀ x, matchBody target (.object [(FieldName.wire (.text field), x)]) =
      (operand target x).map fun y =>
        .object [(clauseName target (FieldName.wire (.text field)) x, y)] := by
    intro x
    rw [matchBody_single (not_logical_of_lead hlead), clause, if_neg hlead]
    cases operand target x <;> rfl
  refine ⟨_, _, Selection.compile_equality halone hv, compile_written hbeside hv, ?_, ?_⟩
  · rw [hclause, hclause, operand_written, exists_map_eq_ok_iff, exists_map_eq_ok_iff,
      exists_map_eq_ok_iff]
    exact hencoded.succeed
  · intro e e' he he'
    rw [hclause] at he he'
    rw [operand_written] at he'
    obtain ⟨x, hx, rfl⟩ := exists_of_map_eq_ok he
    obtain ⟨y, hy, rfl⟩ := exists_of_map_eq_ok he'
    obtain ⟨x', hx', rfl⟩ := exists_of_map_eq_ok hy
    refine ⟨_, _, x, x', rfl, rfl, ?_, hencoded.same x x' hx hx'⟩
    rw [clauseName_eq_iff hname, holdsPointer_written, holdsPointer_eq_iff]

/-- A mapping with a date in it and a list of texts under the name of an operator. -/
theorem equality_encoded_alike_mapping :
    let v : Value := .object [("since", .date ⟨2024, 2, 29⟩), ("$in", .tuple [.text "a", .null])]
    let w : Value := .object [("since", Wire.taggedDate (.text "2024-02-29T00:00:00.000Z")),
      ("$in", .list [.text "a", .null])]
    let s : FilterStore := ⟨[⟨[⟨"release_info", .equal, v⟩], []⟩,
      ⟨[⟨"release_info", .equal, v⟩, ⟨"release_info", .present, .bool true⟩], []⟩]⟩
    Wire.ofValue v = .ok w ∧ hasInnerPointer w = false ∧ lendsInside w = false ∧
      ∃ body body', s.compile 0 = .ok body ∧ s.compile 1 = .ok body' ∧
        (∃ e, matchBody .storage (.object body) = .ok e) ∧
        ∀ e e', matchBody .storage (.object body) = .ok e →
          matchBody .storage (.object body') = .ok e' →
          ∃ name x, e = .object [(name, x)] ∧
            e' = .object [(name, .object [("$eq", x), ("$exists", .bool true)])] := by
  intro v w s
  have hv : Wire.ofValue v = .ok w := by rfl
  have halone : s.get 0 = ⟨[⟨"release_info", .equal, v⟩], []⟩ := rfl
  have hbeside : s.get 1 =
      ⟨[⟨"release_info", .equal, v⟩, ⟨"release_info", .present, .bool true⟩], []⟩ := rfl
  obtain ⟨body, body', hbody, hbody', _, hsame⟩ :=
    equality_encoded_alike_iff halone hbeside (by decide) (by decide) hv .storage
  obtain rfl := Except.ok.inj (hbody.symm.trans (Selection.compile_equality rfl hv))
  refine ⟨hv, by rfl, by rfl, _, body', hbody, hbody', ⟨_, rfl⟩, fun e e' he he' => ?_⟩
  obtain ⟨name, name', x, x', rfl, rfl, hname, hx⟩ := hsame e e' he he'
  obtain rfl := hname.mpr rfl
  obtain rfl := hx.mpr rfl
  exact ⟨name, x, rfl, rfl⟩

/-- A field that has to equal a list of pointers is looked up under its own name, and with
    another condition beside it under the name of its pointer column. -/
theorem equality_moved :
    let v : Value := .list [.pointer ⟨"Artist", "a1"⟩]
    let s : FilterStore := ⟨[⟨[⟨"artists", .equal, v⟩], []⟩,
      ⟨[⟨"artists", .equal, v⟩, ⟨"artists", .present, .bool true⟩], []⟩]⟩
    s.Built ∧ ∃ body body', s.compile 0 = .ok body ∧ s.compile 1 = .ok body' ∧
      matchBody .storage (.object body) = .ok (.object [("artists", .list [.text "Artist$a1"])]) ∧
      matchBody .storage (.object body') = .ok (.object [("_p_artists",
        .object [("$eq", .list [.text "Artist$a1"]), ("$exists", .bool true)])]) := by
  intro v s
  have hnew : FilterStore.Built ⟨[.empty, .empty]⟩ := .new (.new .empty)
  let alone : FilterCell := ⟨[⟨"artists", .equal, v⟩], []⟩
  have hfirst : FilterStore.add ⟨[.empty, .empty]⟩ 0 (.text "artists") (.text "eq") v =
      .ok ⟨[alone, .empty]⟩ := rfl
  have hsecond : FilterStore.add ⟨[alone, .empty]⟩ 1 (.text "artists") (.text "eq") v =
      .ok ⟨[alone, alone]⟩ := rfl
  have hbeside : FilterStore.add ⟨[alone, alone]⟩ 1 (.text "artists") (.text "exists")
      (.bool true) = .ok s := rfl
  exact ⟨.add (.add (.add hnew hfirst) hsecond) hbeside, _, _, Selection.compile_equality rfl rfl,
    compile_written rfl rfl, rfl, rfl⟩

end Encoding

end DocQuery
