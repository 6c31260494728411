-- SUMMARY: Decimal texts begin with digits, and padded ones are read back.
import DocQuery.Number.Decimal
import Mathlib.Algebra.Group.Nat.Defs

/-!
# Decimal texts

A decimal text begins with a digit. A number that fits is padded to the exact width, with
digits only, and the digits have its value.
-/

namespace DocQuery.Decimal

/-! ## The first digit -/

theorem ne_of_isDigit {c d : Char} (hc : c.isDigit = true) (hd : d.isDigit = false) : c ≠ d := by
  rintro rfl
  rw [hc] at hd
  cases hd

theorem exists_digit_natText (n : Nat) :
    ∃ c cs, natText n = c :: cs ∧ c.isDigit = true := by
  cases h : natText n with
  | nil => exact absurd h Nat.toDigits_ne_nil
  | cons c cs =>
    have hmem : c ∈ Nat.toDigits 10 n := by
      have hcs : c ∈ natText n := by simp [h]
      exact hcs
    exact ⟨c, cs, rfl, Nat.isDigit_of_mem_toDigits (by decide) (by decide) hmem⟩

theorem exists_digit_padded (width n : Nat) :
    ∃ c cs, padded width n = c :: cs ∧ c.isDigit = true := by
  obtain ⟨c, cs, hcs, hc⟩ := exists_digit_natText n
  cases hz : width - (natText n).length with
  | zero =>
    rw [hcs] at hz
    refine ⟨c, cs, ?_, hc⟩
    simp only [padded, hcs, hz]
    rfl
  | succ k =>
    refine ⟨'0', List.replicate k '0' ++ c :: cs, ?_, by decide⟩
    rw [hcs] at hz
    simp only [padded, hcs, hz]
    rfl

theorem exists_digit_text (style : Style) (d : Decimal) :
    ∃ c cs, text style d = c :: cs ∧ c.isDigit = true := by
  obtain ⟨c, cs, hcs, hc⟩ := exists_digit_natText d.digits
  unfold text
  simp only [hcs]
  split
  · split
    · exact ⟨'0', _, rfl, by decide⟩
    · split
      · exact ⟨c, _, rfl, hc⟩
      · rename_i hpositive _
        obtain ⟨k, hk⟩ : ∃ k, (((c :: cs).length : Int) + d.scale).toNat = k + 1 :=
          ⟨(((c :: cs).length : Int) + d.scale).toNat - 1, by omega⟩
        rw [hk]
        exact ⟨c, _, rfl, hc⟩
  · cases cs with
    | nil => exact ⟨c, _, rfl, hc⟩
    | cons c' cs => exact ⟨c, _, rfl, hc⟩

/-! ## Padded digits -/

theorem length_padded {width n : Nat} (hwidth : 0 < width) (hn : n < 10 ^ width) :
    (padded width n).length = width := by
  have hle : (natText n).length ≤ width := (Nat.length_toDigits_le_iff (by decide) hwidth).mpr hn
  simp only [padded, List.length_append, List.length_replicate]
  omega

theorem isDigit_of_mem_padded {width n : Nat} {c : Char} (hc : c ∈ padded width n) :
    c.isDigit = true := by
  simp only [padded, List.mem_append, List.mem_replicate] at hc
  rcases hc with ⟨_, rfl⟩ | hc
  · decide
  · exact Nat.isDigit_of_mem_toDigits (by decide) (by decide) hc

theorem ofDigits_padded (width n : Nat) : ofDigits 0 (padded width n) = n := by
  show Nat.ofDigitChars 10 (padded width n) 0 = n
  simp only [padded]
  rw [Nat.ofDigitChars_append, Nat.ofDigitChars_replicate_zero]
  simp [natText]

end DocQuery.Decimal
