-- SUMMARY: Values that are the same but for the spelling of reserved keys.
import DocQuery.Proofs.Value.SameData

/-!
# Values with respelled keys

A reserved key of a mapping may be written as such or as its text. Values that differ in nothing
else, at any depth, are equal, and they are looked at alike: under the texts of its keys, a
mapping holds the same fields however the keys are written.
-/

namespace DocQuery.Value

/-- The same key, which may be written as a reserved key in the one and as its text in the
    other. -/
abbrev SameKey (k k' : Value) : Prop :=
  k = k' ∨ SameText k k'

/-- The values are the same but for the spelling of the keys of their mappings. -/
inductive Rekeyed : Value → Value → Prop
  | same (v : Value) : Rekeyed v v
  | list {xs ys : List Value} (h : List.Forall₂ Rekeyed xs ys) : Rekeyed (.list xs) (.list ys)
  | tuple {xs ys : List Value} (h : List.Forall₂ Rekeyed xs ys) :
    Rekeyed (.tuple xs) (.tuple ys)
  | map {es fs : List (Value × Value)} (hkeys : List.Forall₂ (fun e f => SameKey e.1 f.1) es fs)
    (hvalues : List.Forall₂ (fun e f => Rekeyed e.2 f.2) es fs) : Rekeyed (.map es) (.map fs)

/-- Entries in one order whose keys and values are the same but for the spelling of keys. -/
abbrev RekeyedEntries (es fs : List (Value × Value)) : Prop :=
  List.Forall₂ (fun e f => SameKey e.1 f.1 ∧ Rekeyed e.2 f.2) es fs

/-- Fields under one name whose values are the same but for the spelling of keys. -/
abbrev SameField (e f : String × Value) : Prop :=
  e.1 = f.1 ∧ Rekeyed e.2 f.2

/-- Such fields in one order. -/
abbrev RekeyedFields (es fs : List (String × Value)) : Prop :=
  List.Forall₂ SameField es fs

theorem SameKey.keyText {k k' : Value} (h : SameKey k k') : k.keyText = k'.keyText := by
  rcases h with rfl | h
  · rfl
  · exact h.keyText

/-! ## Parts -/

namespace Rekeyed

variable {v w : Value}

/-- Induction over the parts of two values. Of the parts, too, it is known that they are the same
    but for the spelling of keys. -/
@[elab_as_elim]
theorem induct {motive : ∀ v w, Rekeyed v w → Prop} (same : ∀ v, motive v v (.same v))
    (list : ∀ {xs ys : List Value} (h : Rekeyed (.list xs) (.list ys)),
      List.Forall₂ (fun x y => Rekeyed x y ∧ ∀ h, motive x y h) xs ys → motive _ _ h)
    (tuple : ∀ {xs ys : List Value} (h : Rekeyed (.tuple xs) (.tuple ys)),
      List.Forall₂ (fun x y => Rekeyed x y ∧ ∀ h, motive x y h) xs ys → motive _ _ h)
    (map : ∀ {es fs : List (Value × Value)} (h : Rekeyed (.map es) (.map fs)),
      List.Forall₂ (fun e f => SameKey e.1 f.1 ∧ Rekeyed e.2 f.2 ∧ ∀ h, motive e.2 f.2 h) es fs →
      motive _ _ h) (h : Rekeyed v w) : motive v w h := by
  refine @Rekeyed.rec motive
    (fun xs ys _ => List.Forall₂ (fun x y => Rekeyed x y ∧ ∀ h, motive x y h) xs ys)
    (fun es fs _ => List.Forall₂ (fun e f => Rekeyed e.2 f.2 ∧ ∀ h, motive e.2 f.2 h) es fs)
    same (fun h => list (.list h)) (fun h => tuple (.tuple h)) ?_ .nil ?_ .nil ?_ _ _ h
  · exact fun hkeys hvalues ih => map (.map hkeys hvalues) (hkeys.mp (fun _ _ => And.intro) ih)
  · exact fun hhead _ ih hrest => .cons ⟨hhead, fun _ => ih⟩ hrest
  · exact fun hhead _ ih hrest => .cons ⟨hhead, fun _ => ih⟩ hrest

theorem sameItems (xs : List Value) : List.Forall₂ Rekeyed xs xs :=
  List.forall₂_same.mpr fun x _ => .same x

theorem sameEntries (es : List (Value × Value)) : RekeyedEntries es es :=
  List.forall₂_same.mpr fun e _ => ⟨.inl rfl, .same e.2⟩

theorem ofEntries {es fs : List (Value × Value)} (h : RekeyedEntries es fs) :
    Rekeyed (.map es) (.map fs) :=
  .map (h.imp fun _ _ hef => hef.1) (h.imp fun _ _ hef => hef.2)

theorem entries {es fs : List (Value × Value)} (h : Rekeyed (.map es) (.map fs)) :
    RekeyedEntries es fs := by
  cases h with
  | same => exact sameEntries es
  | map hkeys hvalues => exact hkeys.mp (fun _ _ => And.intro) hvalues

theorem object {es fs : List (String × Value)} (h : RekeyedFields es fs) :
    Rekeyed (.object es) (.object fs) := by
  refine .ofEntries ?_
  rw [RekeyedEntries, List.forall₂_map_left_iff, List.forall₂_map_right_iff]
  exact h.imp fun _ _ hef => ⟨.inl (congrArg Value.text hef.1), hef.2⟩

end Rekeyed

/-! ## Equality -/

theorem equal_of_text? {k : Value} {s : String} (h : k.text? = some s) (u : Value) :
    u.equal k = (u.text? == some s) := by
  cases k with
  | text t =>
    cases h
    cases u <;> simp [equal, equalPlain, number?, text?]
  | tagKey key =>
    cases h
    cases u <;> simp [equal, equalPlain, number?, text?]
  | _ => cases h

theorem SameKey.equal_right {k k' : Value} (h : SameKey k k') (u : Value) :
    u.equal k = u.equal k' := by
  rcases h with rfl | ⟨s, hk, hk'⟩
  · rfl
  · rw [equal_of_text? hk, equal_of_text? hk']

mutual

/-- Equality does not tell how keys are spelled. -/
theorem Rekeyed.equal_right : ∀ (u : Value) {v w : Value}, Rekeyed v w → u.equal v = u.equal w
  | .list us, _, _, h => by
    cases h with
    | same => rfl
    | list h => exact equalItems_rekeyed us h
    | _ => rfl
  | .tuple us, _, _, h => by
    cases h with
    | same => rfl
    | tuple h => exact equalItems_rekeyed us h
    | _ => rfl
  | .map us, _, _, h => by
    cases h with
    | same => rfl
    | map hkeys hvalues =>
      rw [equal, equal, hkeys.length_eq, entriesIn_rekeyed us (Rekeyed.map hkeys hvalues).entries]
    | _ => rfl
  | .null, _, _, h | .bool _, _, _, h | .int _, _, _, h | .float _, _, _, h | .text _, _, _, h
  | .brokenText _, _, _, h | .tagKey _, _, _, h | .set _ _, _, _, h | .bytes _, _, _, h
  | .date _, _, _, h | .datetime _, _, _, h | .pointer _, _, _, h | .objectId _, _, _, h
  | .regex _, _, _, h | .order _, _, _, h => by
    cases h <;> rfl

theorem equalItems_rekeyed : ∀ (us : List Value) {vs ws : List Value}, List.Forall₂ Rekeyed vs ws →
    equalItems us vs = equalItems us ws
  | [], _, _, h => by
    cases h <;> rfl
  | u :: us, _, _, h => by
    cases h with
    | nil => rfl
    | cons hhead hrest =>
      rw [equalItems, equalItems, hhead.equal_right u, equalItems_rekeyed us hrest]

theorem entriesIn_rekeyed : ∀ (us : List (Value × Value)) {es fs : List (Value × Value)}, RekeyedEntries es fs →
    entriesIn us es = entriesIn us fs
  | [], _, _, _ => rfl
  | (k, u) :: us, _, _, h => by
    rw [entriesIn, entriesIn, entriesIn_rekeyed us h]
    congr 1
    exact any_eq_any_of_forall₂ h fun e f hef =>
      congrArg₂ and (hef.1.equal_right k) (hef.2.equal_right u)

end


/-! ## Values that equal themselves -/

mutual

/-- Not a number stands nowhere in the value, not in its keys either. -/
def isNanFree : Value → Bool
  | .float x => x != .nan
  | .list xs | .tuple xs | .set _ xs => areNanFree xs
  | .map es => haveNanFree es
  | _ => true

/-- It stands in none of the values. -/
def areNanFree : List Value → Bool
  | [] => true
  | x :: xs => x.isNanFree && areNanFree xs

/-- It stands in none of the keys and values. -/
def haveNanFree : List (Value × Value) → Bool
  | [] => true
  | (k, v) :: es => k.isNanFree && v.isNanFree && haveNanFree es

end

theorem datetime_same_self (t : DateTime) : t.same t = true := by
  rw [DateTime.same]
  cases t.instant? with
  | none => exact beq_self_eq_true t.reading
  | some i => exact beq_self_eq_true i

mutual

theorem equal_self : ∀ v : Value, v.isNanFree = true → v.equal v = true
  | .list xs, h => equalItems_self xs h
  | .tuple xs, h => equalItems_self xs h
  | .set _ xs, h => by
    rw [equal, beq_self_eq_true, Bool.true_and]
    exact itemsIn_of_subset xs xs (fun _ hx => hx) h
  | .map es, h => by
    rw [equal, beq_self_eq_true, Bool.true_and]
    exact entriesIn_of_subset es es (fun _ he => he) h
  | .float x, h => float_equal_self (bne_iff_ne.mp h)
  | .bool _, _ => int_equal_self _
  | .int n, _ => int_equal_self n
  | .datetime t, _ => datetime_same_self t
  | .null, _ => rfl
  | .text s, _ => beq_self_eq_true s
  | .brokenText t, _ => beq_self_eq_true t
  | .tagKey k, _ => beq_self_eq_true k.text
  | .bytes b, _ => beq_self_eq_true b
  | .date d, _ => beq_self_eq_true d
  | .pointer p, _ => beq_self_eq_true p
  | .objectId o, _ => beq_self_eq_true o
  | .regex r, _ => beq_self_eq_true r
  | .order o, _ => beq_self_eq_true o

theorem equalItems_self : ∀ xs : List Value, areNanFree xs = true → equalItems xs xs = true
  | [], _ => rfl
  | x :: xs, h => by
    rw [areNanFree, Bool.and_eq_true] at h
    rw [equalItems, equal_self x h.1, equalItems_self xs h.2, Bool.and_self]

theorem itemsIn_of_subset : ∀ xs ys : List Value, (∀ x ∈ xs, x ∈ ys) → areNanFree xs = true →
    itemsIn xs ys = true
  | [], _, _, _ => rfl
  | x :: xs, ys, hsub, h => by
    rw [areNanFree, Bool.and_eq_true] at h
    obtain ⟨hx, hxs⟩ := List.forall_mem_cons.mp hsub
    rw [itemsIn, itemsIn_of_subset xs ys hxs h.2, Bool.and_true]
    exact List.any_eq_true.mpr ⟨x, hx, equal_self x h.1⟩

theorem entriesIn_of_subset : ∀ es fs : List (Value × Value), (∀ e ∈ es, e ∈ fs) →
    haveNanFree es = true → entriesIn es fs = true
  | [], _, _, _ => rfl
  | (k, v) :: es, fs, hsub, h => by
    rw [haveNanFree, Bool.and_eq_true, Bool.and_eq_true] at h
    obtain ⟨he, hes⟩ := List.forall_mem_cons.mp hsub
    rw [entriesIn, entriesIn_of_subset es fs hes h.2, Bool.and_true]
    refine List.any_eq_true.mpr ⟨(k, v), he, ?_⟩
    exact Bool.and_eq_true_iff.mpr ⟨equal_self k h.1.1, equal_self v h.1.2⟩

end

/-- Values that are the same but for the spelling of keys are equal, unless not a number stands
    in them. -/
theorem Rekeyed.beq {v w : Value} (h : Rekeyed v w) (hnan : v.isNanFree = true) :
    (v == w) = true := by
  show v.equal w = true
  rw [← h.equal_right v]
  exact equal_self v hnan

/-- Values that are the same but for the spelling of keys, with what that means for equality. -/
structure SameResult (v w : Value) : Prop where
  rekeyed : Rekeyed v w
  beq : v.isNanFree = true → (v == w) = true

theorem Rekeyed.sameResult {v w : Value} (h : Rekeyed v w) : SameResult v w :=
  ⟨h, h.beq⟩

/-! ## What is read of a value -/

namespace Rekeyed

variable {v w : Value}

theorem text? (h : Rekeyed v w) : v.text? = w.text? := by
  cases h <;> rfl

theorem points? (h : Rekeyed v w) : v.points? = w.points? := by
  cases h <;> rfl

theorem isGiven (h : Rekeyed v w) : v.isGiven = w.isGiven := by
  cases h with
  | same => rfl
  | list h | tuple h => cases h <;> rfl
  | map h _ => cases h <;> rfl

/-- The items of lists and of tuples. -/
theorem sequence? (h : Rekeyed v w) :
    Option.Rel (List.Forall₂ Rekeyed) v.sequence? w.sequence? := by
  cases h with
  | same =>
    cases v.sequence? with
    | none => exact .none
    | some xs => exact .some (sameItems xs)
  | list h | tuple h => exact .some h
  | map _ _ => exact .none

/-- The entries of mappings. -/
theorem entries? (h : Rekeyed v w) : Option.Rel RekeyedEntries v.entries? w.entries? := by
  cases h with
  | same =>
    cases v.entries? with
    | none => exact .none
    | some es => exact .some (sameEntries es)
  | list _ | tuple _ => exact .none
  | map hkeys hvalues => exact .some (Rekeyed.map hkeys hvalues).entries

/-! ### Fields and tags -/

theorem textEntries {es fs : List (Value × Value)} (h : RekeyedEntries es fs) :
    RekeyedFields (textEntries es) (textEntries fs) := by
  rw [Value.textEntries, Value.textEntries, RekeyedFields, List.forall₂_map_left_iff,
    List.forall₂_map_right_iff]
  exact h.imp fun _ _ hef => ⟨hef.1.keyText, hef.2⟩

theorem fields {es fs : List (Value × Value)} (h : RekeyedEntries es fs) :
    RekeyedFields (fields es) (fields fs) :=
  Assoc.ofPairs_forall₂ (textEntries h)

theorem field {es fs : List (Value × Value)} (h : RekeyedEntries es fs) (name : String) :
    Rekeyed (field es name) (field fs name) := by
  obtain ⟨hnone, hnone'⟩ | ⟨x, y, hx, hy, hxy⟩ :=
    none_or_some_of_rel (Assoc.find?_forall₂ (fun _ => Rekeyed) (fields h) name)
  · rw [Value.field, Value.field, hnone, hnone']
    exact .same .null
  · rw [Value.field, Value.field, hx, hy]
    exact hxy

theorem isTagged (h : Rekeyed v w) (type : String) : v.isTagged type = w.isTagged type := by
  cases h with
  | map hkeys hvalues =>
    have htype := field (Rekeyed.map hkeys hvalues).entries "__type"
    rw [Value.isTagged, Value.isTagged, Bool.eq_iff_iff, beq_text_iff, beq_text_iff, htype.text?]
  | _ => rfl

theorem isPointer (h : Rekeyed v w) : v.isPointer = w.isPointer := by
  cases h with
  | map hkeys hvalues => exact (Rekeyed.map hkeys hvalues).isTagged "Pointer"
  | _ => rfl

theorem isDate (h : Rekeyed v w) : v.isDate = w.isDate := by
  cases h with
  | map hkeys hvalues => exact (Rekeyed.map hkeys hvalues).isTagged "Date"
  | _ => rfl

end Rekeyed

/-! ## Conversions -/

/-- Both conversions fail, or both succeed with values that are the same but for the spelling of
    keys. -/
abbrev ConvertAlike (x y : Except Error Value) : Prop :=
  SucceedAlike Rekeyed x y

/-- Both fail, or both succeed with such values under one name. -/
abbrev FieldAlike (x y : Except Error (String × Value)) : Prop :=
  SucceedAlike SameField x y

namespace ConvertAlike

theorem refl (x : Except Error Value) : ConvertAlike x x :=
  SucceedAlike.refl .same x

theorem ofEq {x y : Except Error Value} (h : SucceedAlike Eq x y) : ConvertAlike x y :=
  h.imp fun v _ hvw => hvw ▸ .same v

theorem sameResult {x y : Except Error Value} (h : ConvertAlike x y) :
    SucceedAlike SameResult x y :=
  h.imp fun _ _ hvw => hvw.sameResult

theorem named {x y : Except Error Value} (h : ConvertAlike x y) (name : String) :
    FieldAlike (x.map fun w => (name, w)) (y.map fun w => (name, w)) :=
  h.map fun _ _ hab => ⟨rfl, hab⟩

theorem bindNamed {x y : Except Error Value} (h : ConvertAlike x y) (name : String) :
    FieldAlike (x >>= fun w => .ok (name, w)) (y >>= fun w => .ok (name, w)) :=
  h.bind fun _ _ hab => .ok ⟨rfl, hab⟩

variable {α β : Type} {xs : List α} {ys : List β}

theorem list {f : α → Except Error Value} {g : β → Except Error Value}
    (h : List.Forall₂ (fun x y => ConvertAlike (f x) (g y)) xs ys) :
    ConvertAlike ((xs.mapM f).map .list) ((ys.mapM g).map .list) :=
  (SucceedAlike.mapM h).map fun _ _ hitems => .list hitems

theorem object {f : α → Except Error (String × Value)} {g : β → Except Error (String × Value)}
    (h : List.Forall₂ (fun x y => FieldAlike (f x) (g y)) xs ys) :
    ConvertAlike ((xs.mapM f).map fun fields => .object (Assoc.ofPairs fields))
      ((ys.mapM g).map fun fields => .object (Assoc.ofPairs fields)) :=
  (SucceedAlike.mapM h).map fun _ _ hfields => .object (Assoc.ofPairs_forall₂ hfields)

/-- Mappings whose values are converted one by one, each under the text of its key. -/
theorem entries (f : String → Value → Except Error Value) {es fs : List (Value × Value)}
    (h : List.Forall₂ (fun e e' => SameKey e.1 e'.1 ∧
      ConvertAlike (f e.1.keyText e.2) (f e.1.keyText e'.2)) es fs) :
    ConvertAlike
      ((es.mapM fun e => (f e.1.keyText e.2).map fun w => (e.1.keyText, w)).map
        fun fields => .object (Assoc.ofPairs fields))
      ((fs.mapM fun e => (f e.1.keyText e.2).map fun w => (e.1.keyText, w)).map
        fun fields => .object (Assoc.ofPairs fields)) := by
  refine .object (h.imp fun e e' hee' => ?_)
  rw [← hee'.1.keyText]
  exact hee'.2.named e.1.keyText

end ConvertAlike

end DocQuery.Value
