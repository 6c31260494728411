-- SUMMARY: The keys that rows are grouped by: when they are equal.
import DocQuery.Group.Key
import DocQuery.Wire.Date
import Mathlib.Tactic.Common

/-!
# Keys of groups

Rows are grouped by nulls, truth values, whole numbers, texts and points in time. Each of
these stands for one thing, and they are equal when they stand for the same.
-/

namespace DocQuery

/-- The instant of a point in time, or its reading when its offset is not known. -/
def DateTime.moment (t : DateTime) : Int ⊕ Nat :=
  t.instant?.elim (.inr t.reading) .inl

theorem DateTime.same_iff_moment {t u : DateTime} : t.same u = true ↔ t.moment = u.moment := by
  unfold same moment
  cases t.instant? <;> cases u.instant? <;> simp

namespace Value

/-- The value is null. -/
def isNull : Value → Bool
  | .null => true
  | _ => false

/-- A value that rows are grouped by. Points in time have a UTC reading. -/
inductive IsKey : Value → Prop
  | null : IsKey .null
  | bool (b : Bool) : IsKey (.bool b)
  | int (n : Int) : IsKey (.int n)
  | text (s : String) : IsKey (.text s)
  | datetime {t u : DateTime} (h : t.toUtc = .ok u) : IsKey (.datetime t)

/-- What a key stands for. -/
inductive Meaning where
  | nothing
  | number (n : Int)
  | text (s : String)
  | moment (m : Int ⊕ Nat)
  deriving DecidableEq

/-- What a value stands for, if it is a key. -/
def meaning : Value → Meaning
  | .bool b => .number b.toNat
  | .int n => .number n
  | .text s => .text s
  | .datetime t => .moment t.moment
  | _ => .nothing

/-- Keys are equal when they stand for the same. -/
theorem IsKey.beq_iff {a b : Value} (ha : a.IsKey) (hb : b.IsKey) :
    (a == b) = true ↔ a.meaning = b.meaning := by
  show a.equal b = true ↔ _
  have hint : ∀ m n : Int, (Number.int m).equal (.int n) = true ↔ m = n := by
    intro m n
    show (some (compare m n) == some Ordering.eq) = true ↔ _
    simp
  cases ha <;> cases hb <;>
    simp [equal, equalPlain, number?, text?, meaning, hint, DateTime.same_iff_moment]

theorem IsKey.beq_eq_decide {a b : Value} (ha : a.IsKey) (hb : b.IsKey) :
    (a == b) = decide (a.meaning = b.meaning) := by
  rw [Bool.eq_iff_iff, ha.beq_iff hb, decide_eq_true_eq]

/-- Of the keys only null stands for nothing. -/
theorem IsKey.isNull_eq_decide {v : Value} (h : v.IsKey) :
    v.isNull = decide (v.meaning = .nothing) := by
  cases h <;> simp [isNull, meaning]

end Value

end DocQuery
