-- SUMMARY: Values that are the same but for the order of entries and the spelling of keys.
import DocQuery.Proofs.Assoc
import DocQuery.Proofs.Wire.Tagged
import Mathlib.Data.List.Perm.Basic

/-!
# Values with the same data

Two values may differ in the order of the entries of their mappings, and in whether reserved
keys are written as such, and still hold the same data. Such values are equal, but for not a
number: it differs from itself, and here it stays what it is.
-/

namespace DocQuery.Value

/-- The keys are the same text, which may be written as a reserved key. -/
abbrev SameText (k k' : Value) : Prop :=
  ∃ s, k.text? = some s ∧ k'.text? = some s

/-- The values hold the same data: the same scalars in lists item by item, and in mappings
    under the same texts, in any order. -/
inductive SameData : Value → Value → Prop
  | scalar {v : Value} (h : v.IsScalar) : SameData v v
  | float (x : Binary64) : SameData (.float x) (.float x)
  | list {xs ys : List Value} (h : List.Forall₂ SameData xs ys) : SameData (.list xs) (.list ys)
  | map {es fs gs : List (Value × Value)} (hperm : gs.Perm fs)
    (hkeys : List.Forall₂ (fun e g => SameText e.1 g.1) es gs)
    (hvalues : List.Forall₂ (fun e g => SameData e.2 g.2) es gs) : SameData (.map es) (.map fs)

/-! ## Equality -/

mutual

/-- Not a number stands nowhere in the value. -/
def isReflexive : Value → Bool
  | .float x => x != .nan
  | .list xs | .tuple xs | .set _ xs => areReflexive xs
  | .map es => haveReflexive es
  | _ => true

/-- It stands in none of the values. -/
def areReflexive : List Value → Bool
  | [] => true
  | x :: xs => isReflexive x && areReflexive xs

/-- It stands in no value of the entries. -/
def haveReflexive : List (Value × Value) → Bool
  | [] => true
  | (_, v) :: es => isReflexive v && haveReflexive es

end

theorem SameText.beq {k k' : Value} (h : SameText k k') : (k == k') = true := by
  obtain ⟨s, hk, hk'⟩ := h
  cases k' with
  | text t =>
    cases hk'
    exact beq_text_iff.mpr hk
  | tagKey key =>
    cases hk'
    cases k with
    | text t =>
      show (t == key.text) = true
      exact beq_iff_eq.mpr (Option.some.inj hk)
    | tagKey key' =>
      show (key'.text == key.text) = true
      exact beq_iff_eq.mpr (Option.some.inj hk)
    | _ => cases hk
  | _ => cases hk'

theorem SameText.keyText {k k' : Value} (h : SameText k k') : k.keyText = k'.keyText := by
  obtain ⟨s, hk, hk'⟩ := h
  rw [keyText_of_text? hk, keyText_of_text? hk']

theorem int_equal_self (n : Int) : (Number.int n).equal (.int n) = true := by
  simp [Number.equal, Number.compare?]

theorem float_equal_self {x : Binary64} (hx : x ≠ .nan) :
    (Number.float x).equal (.float x) = true := by
  cases x with
  | nan => exact absurd rfl hx
  | infinite negative => simp [Number.equal, Number.compare?]
  | finite negative mantissa exponent =>
    simp [Number.equal, Number.compare?, Number.compareScaled]

theorem IsScalar.beq_self {v : Value} (hv : v.IsScalar) : (v == v) = true := by
  cases hv with
  | null => rfl
  | bool b => exact int_equal_self _
  | int n => exact int_equal_self n
  | text s => exact beq_text_iff.mpr rfl
  | brokenText t => exact beq_self_eq_true t
  | tagKey k => exact beq_self_eq_true k.text

mutual

theorem equal_of_sameData : ∀ v w : Value, SameData v w → v.isReflexive = true → v.equal w = true
  | .list xs, w, h => by
    intro hv
    cases h with
    | scalar hscalar => cases hscalar
    | list h => exact equalItems_of_sameData xs _ h hv
  | .map es, w, h => by
    intro hv
    cases h with
    | scalar hscalar => cases hscalar
    | @map _ fs gs hperm hkeys hvalues =>
      have hlength : es.length = fs.length := hkeys.length_eq.trans hperm.length_eq
      rw [equal, hlength, beq_self_eq_true, Bool.true_and]
      exact entriesIn_of_sameData es gs fs (fun g hg => hperm.mem_iff.mp hg) hkeys hvalues hv
  | .float x, w, h => by
    intro hv
    cases h with
    | scalar hscalar => cases hscalar
    | float _ => exact float_equal_self (bne_iff_ne.mp hv)
  | .null, w, h | .bool _, w, h | .int _, w, h | .text _, w, h | .brokenText _, w, h
  | .tagKey _, w, h | .tuple _, w, h | .set _ _, w, h | .bytes _, w, h | .date _, w, h
  | .datetime _, w, h | .pointer _, w, h | .objectId _, w, h | .regex _, w, h
  | .order _, w, h => by
    intro _
    cases h with
    | scalar hscalar => exact hscalar.beq_self

theorem equalItems_of_sameData : ∀ xs ys : List Value, List.Forall₂ SameData xs ys →
    areReflexive xs = true → equalItems xs ys = true
  | [], ys, h => by
    intro _
    cases h
    rfl
  | x :: xs, ys, h => by
    intro hv
    rw [areReflexive, Bool.and_eq_true] at hv
    cases h with
    | @cons _ y _ ys hhead hrest =>
      rw [equalItems, Bool.and_eq_true]
      exact ⟨equal_of_sameData x y hhead hv.1, equalItems_of_sameData xs ys hrest hv.2⟩

theorem entriesIn_of_sameData : ∀ es gs fs : List (Value × Value), (∀ g ∈ gs, g ∈ fs) →
    List.Forall₂ (fun e g => SameText e.1 g.1) es gs →
    List.Forall₂ (fun e g => SameData e.2 g.2) es gs → haveReflexive es = true →
    entriesIn es fs = true
  | [], gs, fs, hmem, hkeys, hvalues => fun _ => rfl
  | (k, v) :: es, gs, fs, hmem, hkeys, hvalues => by
    intro hv
    rw [haveReflexive, Bool.and_eq_true] at hv
    cases hkeys with
    | @cons _ g _ gs hkey hkeys =>
      cases hvalues with
      | cons hvalue hvalues =>
        obtain ⟨hg, hgs⟩ := List.forall_mem_cons.mp hmem
        rw [entriesIn, Bool.and_eq_true]
        refine ⟨List.any_eq_true.mpr ⟨g, hg, ?_⟩,
          entriesIn_of_sameData es gs fs hgs hkeys hvalues hv.2⟩
        exact Bool.and_eq_true_iff.mpr ⟨hkey.beq, equal_of_sameData v g.2 hvalue hv.1⟩

end

/-! ## Fields -/

theorem text_of_sameData {v : Value} {s : String} (h : SameData v (.text s)) : v = .text s := by
  cases h
  rfl

theorem exists_map_of_sameData {v : Value} {fs : List (String × Value)}
    (h : SameData v (.object fs)) : ∃ es, v = .map es := by
  generalize hw : Value.object fs = w at h
  cases h with
  | @scalar v hscalar =>
    subst hw
    cases hscalar
  | map _ _ _ => exact ⟨_, rfl⟩
  | _ => cases hw

/-- Under each name a mapping holds the data that another with the same data holds. -/
theorem sameData_fields {es : List (Value × Value)} {fs : List (String × Value)}
    (h : SameData (.map es) (.object fs)) (hnodup : (Assoc.keys fs).Nodup) (name : String) :
    Option.Rel SameData (Assoc.find? name (fields es)) (Assoc.find? name fs) := by
  generalize hv : Value.object fs = v at h
  cases h with
  | scalar hscalar => cases hscalar
  | @map _ es' gs hperm hkeys hvalues =>
    cases hv
    have htexts : (textEntries gs).Perm fs := by
      rw [← textEntries_object fs]
      exact hperm.map _
    have hsame : List.Forall₂ (fun e g => e.1 = g.1 ∧ SameData e.2 g.2) (textEntries es)
        (textEntries gs) := by
      rw [textEntries, textEntries, List.forall₂_map_left_iff, List.forall₂_map_right_iff]
      exact hkeys.mp (fun _ _ hkey hvalue => ⟨hkey.keyText, hvalue⟩) hvalues
    have hkeysSame := Assoc.keys_of_forall₂ hsame fun _ _ heg => heg.1
    have hdistinct : (Assoc.keys (textEntries es)).Nodup := by
      rw [hkeysSame]
      exact (htexts.map Prod.fst).nodup_iff.mpr hnodup
    rw [fields, Assoc.ofPairs_of_nodup hdistinct, ← Assoc.find?_of_perm htexts hnodup]
    exact Assoc.find?_forall₂ (fun _ => SameData) hsame name

theorem field_of_sameData {es : List (Value × Value)} {fs : List (String × Value)}
    (h : SameData (.map es) (.object fs)) (hnodup : (Assoc.keys fs).Nodup) {name s : String}
    (hfound : Assoc.find? name fs = some (.text s)) : field es name = .text s := by
  have hfields := sameData_fields h hnodup name
  rw [hfound] at hfields
  rw [field]
  cases hv : Assoc.find? name (fields es) with
  | none =>
    rw [hv] at hfields
    cases hfields
  | some v =>
    rw [hv] at hfields
    cases hfields with
    | some hsame => exact text_of_sameData hsame

end DocQuery.Value
