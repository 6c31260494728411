-- SUMMARY: The running number of a day determines the day.
import DocQuery.Calendar.Date
import Mathlib.Data.Nat.Init
import Mathlib.Order.Monotone.Basic

/-!
# Running numbers of days

Later years, months and days have larger numbers, so no two days share one.
-/

namespace DocQuery

namespace Calendar

/-- There is one day for each fourth year, none for a century, and one for each fourth
    century. -/
theorem leapDay_eq (y : Nat) :
    (if isLeap y then 1 else 0) + (if 100 ∣ y then 1 else 0) =
      (if 4 ∣ y then 1 else 0) + (if 400 ∣ y then 1 else 0) := by
  have hleap : isLeap y = true ↔ 4 ∣ y ∧ (¬ 100 ∣ y ∨ 400 ∣ y) := by
    simp [isLeap, Nat.dvd_iff_mod_eq_zero]
  have hcentury : 100 ∣ y → 4 ∣ y := Nat.dvd_trans (by decide)
  have hfourth : 400 ∣ y → 100 ∣ y := Nat.dvd_trans (by decide)
  simp only [hleap]
  split <;> split <;> split <;> split <;> simp_all

theorem daysBeforeYear_succ (y : Nat) :
    daysBeforeYear (y + 2) = daysBeforeYear (y + 1) + 365 + (if isLeap (y + 1) then 1 else 0) := by
  have hleap := leapDay_eq (y + 1)
  have hle : y / 100 ≤ y := Nat.div_le_self y 100
  have hcentury : (if 100 ∣ y + 1 then 1 else 0) ≤ 1 := by split <;> decide
  show 365 * (y + 1) + (y + 1) / 4 - (y + 1) / 100 + (y + 1) / 400 =
    365 * y + y / 4 - y / 100 + y / 400 + 365 + _
  rw [Nat.succ_div, Nat.succ_div, Nat.succ_div]
  omega

theorem daysBeforeYear_mono {y z : Nat} (hyz : y ≤ z) :
    daysBeforeYear y ≤ daysBeforeYear z := by
  refine monotone_nat_of_le_succ (fun n => ?_) hyz
  cases n with
  | zero => exact Nat.le_refl _
  | succ n =>
    rw [daysBeforeYear_succ]
    omega

/-- A year ends with its last month. -/
theorem daysBeforeMonth_twelve (y : Nat) :
    daysBeforeMonth y 12 + 31 = 365 + (if isLeap y then 1 else 0) := by
  cases h : isLeap y <;> simp [daysBeforeMonth, daysInMonth, h]

theorem daysBeforeMonth_succ {y m : Nat} (hm : 1 ≤ m) :
    daysBeforeMonth y (m + 1) = daysBeforeMonth y m + daysInMonth y m := by
  obtain ⟨k, rfl⟩ : ∃ k, m = k + 1 := ⟨m - 1, by omega⟩
  rfl

theorem daysBeforeMonth_mono {y m n : Nat} (hm : 1 ≤ m) (hmn : m ≤ n) :
    daysBeforeMonth y m ≤ daysBeforeMonth y n := by
  induction hmn with
  | refl => exact Nat.le_refl _
  | @step n hmn ih =>
    have hn : 1 ≤ n := Nat.le_trans hm hmn
    rw [daysBeforeMonth_succ hn]
    exact Nat.le_add_right_of_le ih

end Calendar

namespace Date

open Calendar

theorem number_lt_of_year_lt {d e : Date} (hd : d.isValid = true) (hyear : d.year < e.year) :
    d.number < e.number := by
  simp only [isValid, Bool.and_eq_true, decide_eq_true_eq] at hd
  obtain ⟨⟨⟨⟨⟨hy, _⟩, hm⟩, hm12⟩, hday⟩, hlast⟩ := hd
  have hmonth : daysBeforeMonth d.year d.month + daysInMonth d.year d.month ≤
      365 + (if isLeap d.year then 1 else 0) := by
    rw [← daysBeforeMonth_twelve]
    rcases Nat.lt_or_ge d.month 12 with hlt | hge
    · rw [← daysBeforeMonth_succ hm]
      exact Nat.le_add_right_of_le (daysBeforeMonth_mono (by omega) hlt)
    · have heq : d.month = 12 := by omega
      rw [heq]
      exact Nat.le_refl _
  obtain ⟨k, hk⟩ : ∃ k, d.year = k + 1 := ⟨d.year - 1, by omega⟩
  have hnext := daysBeforeYear_succ k
  have hmono := daysBeforeYear_mono (y := k + 2) (z := e.year) (by omega)
  rw [← hk] at hnext
  simp only [number]
  omega

theorem number_lt_of_month_lt {d e : Date} (hd : d.isValid = true) (hyear : d.year = e.year)
    (hmonth : d.month < e.month) : d.number < e.number := by
  simp only [isValid, Bool.and_eq_true, decide_eq_true_eq] at hd
  obtain ⟨⟨⟨⟨⟨_, _⟩, hm⟩, _⟩, hday⟩, hlast⟩ := hd
  have hmono := daysBeforeMonth_mono (y := d.year) (m := d.month + 1) (by omega) hmonth
  rw [daysBeforeMonth_succ hm] at hmono
  simp only [number, ← hyear]
  omega

/-- No two days share a number. -/
theorem number_inj {d e : Date} (hd : d.isValid = true) (he : e.isValid = true)
    (h : d.number = e.number) : d = e := by
  rcases Nat.lt_trichotomy d.year e.year with hlt | hyear | hlt
  · exact absurd (number_lt_of_year_lt hd hlt) (by omega)
  · rcases Nat.lt_trichotomy d.month e.month with hlt | hmonth | hlt
    · exact absurd (number_lt_of_month_lt hd hyear hlt) (by omega)
    · obtain ⟨year, month, day⟩ := d
      obtain ⟨year', month', day'⟩ := e
      simp only [isValid, Bool.and_eq_true, decide_eq_true_eq] at hd he
      simp only at hyear hmonth
      subst hyear hmonth
      have hday : day = day' := by
        simp only [number] at h
        omega
      rw [hday]
    · exact absurd (number_lt_of_month_lt he hyear.symm hlt) (by omega)
  · exact absurd (number_lt_of_year_lt he hlt) (by omega)

end Date

end DocQuery
