-- SUMMARY: The digits that values need: how they are bounded, and what is made where they are too many.
import DocQuery.Error
import DocQuery.Proofs.Except
import Mathlib.Algebra.Group.Int.Defs
import Mathlib.Algebra.Group.Nat.Defs

/-!
# Digits

A value needs at most some number of digits when each part of it does, and a whole number does
when it is less than that power of ten. What is made of the text of a value is there exactly when
the value needs no more digits than a text may have.
-/

namespace DocQuery

namespace Value

/-! ## Bounds -/

theorem digitsOfItems_le_iff {k : Nat} {xs : List Value} :
    digitsOfItems xs ≤ k ↔ ∀ x ∈ xs, x.digits ≤ k := by
  induction xs with
  | nil => simp [digitsOfItems]
  | cons x xs ih => rw [digitsOfItems, Nat.max_le, ih, List.forall_mem_cons]

theorem digitsOfEntries_le_iff {k : Nat} {es : List (Value × Value)} :
    digitsOfEntries es ≤ k ↔ ∀ e ∈ es, e.1.digits ≤ k ∧ e.2.digits ≤ k := by
  induction es with
  | nil => simp [digitsOfEntries]
  | cons e es ih => rw [digitsOfEntries, Nat.max_le, Nat.max_le, ih, List.forall_mem_cons]

theorem digits_list_le_iff {k : Nat} {xs : List Value} :
    (Value.list xs).digits ≤ k ↔ ∀ x ∈ xs, x.digits ≤ k :=
  digitsOfItems_le_iff

theorem digits_map_le_iff {k : Nat} {es : List (Value × Value)} :
    (Value.map es).digits ≤ k ↔ ∀ e ∈ es, e.1.digits ≤ k ∧ e.2.digits ≤ k :=
  digitsOfEntries_le_iff

/-- Keys that are texts need no digits. -/
theorem digits_object_le_iff {k : Nat} {fields : List (String × Value)} :
    (Value.object fields).digits ≤ k ↔ ∀ f ∈ fields, f.2.digits ≤ k := by
  rw [object, digits_map_le_iff, List.forall_mem_map]
  exact forall₂_congr fun f _ => and_iff_right (Nat.zero_le k)

/-- A whole number has the digits that are needed for its size. -/
theorem digits_int_le_iff {k : Nat} (hk : 0 < k) (n : Int) :
    (Value.int n).digits ≤ k ↔ n.natAbs < 10 ^ k :=
  Nat.length_toDigits_le_iff (by decide) hk

theorem natAbs_tenPow (k : Nat) : (10 ^ k : Int).natAbs = 10 ^ k :=
  Int.natAbs_pow ..

theorem digits_tenPow (k : Nat) : (Value.int (10 ^ k)).digits = k + 1 := by
  apply Nat.le_antisymm
  · rw [digits_int_le_iff (Nat.succ_pos k), natAbs_tenPow]
    exact Nat.pow_lt_pow_succ (by decide)
  · rcases Nat.eq_zero_or_pos k with rfl | hk
    · decide
    · rw [Nat.succ_le_iff, ← Nat.not_le, digits_int_le_iff hk, natAbs_tenPow]
      exact Nat.lt_irrefl _

theorem lt_digits_tenPow (k : Nat) : k < (Value.int (10 ^ k)).digits := by
  rw [digits_tenPow]
  exact Nat.lt_succ_self k

/-! ## Texts within the limit -/

section Writable

variable {v : Value} {α β : Type}

theorem whenWritable_of_le (h : v.digits ≤ Whole.maxDigits) (a : α) :
    v.whenWritable a = .ok a :=
  if_pos h

theorem whenWritable_of_lt (h : Whole.maxDigits < v.digits) (a : α) :
    v.whenWritable a = .error (.argument .intTooLong) :=
  if_neg (Nat.not_le.mpr h)

theorem map_whenWritable (v : Value) (a : α) (f : α → β) :
    (v.whenWritable a).map f = v.whenWritable (f a) := by
  unfold whenWritable
  split <;> rfl

theorem mapM_whenWritable_of_le {xs : List β} {value : β → Value} (f : β → α)
    (h : ∀ x ∈ xs, (value x).digits ≤ Whole.maxDigits) :
    xs.mapM (fun x => (value x).whenWritable (f x)) = .ok (xs.map f) := by
  rw [mapM_eq_ok_iff, List.forall₂_map_right_iff, List.forall₂_same]
  exact fun x hx => whenWritable_of_le (h x hx) (f x)

/-- One value without a text is enough for none to be made. -/
theorem mapM_whenWritable_of_lt {xs : List β} {value : β → Value} (f : β → α)
    (h : ∃ x ∈ xs, Whole.maxDigits < (value x).digits) :
    xs.mapM (fun x => (value x).whenWritable (f x)) = .error (.argument .intTooLong) := by
  obtain ⟨x, hx, hlong⟩ := h
  refine mapM_eq_error (fun y _ => ?_) ⟨x, hx, whenWritable_of_lt hlong (f x)⟩
  rcases Nat.lt_or_ge Whole.maxDigits (value y).digits with hlt | hle
  · exact .inr (whenWritable_of_lt hlt (f y))
  · exact .inl ⟨f y, whenWritable_of_le hle (f y)⟩

end Writable

end Value

namespace Error

variable {v : Value}

theorem showing_of_le (h : v.digits ≤ Whole.maxDigits) (e : Error) : e.showing v = e :=
  if_pos h

theorem showing_of_lt (h : Whole.maxDigits < v.digits) (e : Error) :
    e.showing v = .argument .intTooLong :=
  if_neg (Nat.not_le.mpr h)

end Error

end DocQuery
