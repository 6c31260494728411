-- SUMMARY: Padded numbers are ordered as texts in the way they are ordered as numbers.
import DocQuery.Proofs.Number.Decimal
import Mathlib.Data.List.Basic

/-!
# The order of digits

Texts are compared character by character. On rows of digits of one length this is the
order of the numbers. On rows of any length it is not, but it is still the order of the
rows when a mark below all digits follows them.
-/

namespace DocQuery.Decimal

/-! ## Rows of one length -/

/-- The greater number in front wins, whatever digits follow. -/
theorem ofDigits_lt_of_lt {xs ys : List Char} (hlen : xs.length = ys.length)
    (hxs : ∀ c ∈ xs, c.isDigit = true) {a b : Nat} (hab : a < b) :
    ofDigits a xs < ofDigits b ys := by
  induction xs generalizing ys a b with
  | nil =>
    obtain rfl := List.eq_nil_of_length_eq_zero hlen.symm
    exact hab
  | cons x xs ih =>
    cases ys with
    | nil => cases hlen
    | cons y ys =>
      obtain ⟨hlow, hhigh⟩ := Char.isDigit_iff_toNat.mp (hxs x List.mem_cons_self)
      have hstep : 10 * a + (x.toNat - '0'.toNat) < 10 * b + (y.toNat - '0'.toNat) := by
        have hnine : '9'.toNat = '0'.toNat + 9 := rfl
        omega
      exact ih (Nat.succ.inj hlen) (fun c hc => hxs c (.tail x hc)) hstep

/-- Rows of one length are ordered as their numbers. -/
theorem lt_iff_ofDigits_lt {xs ys : List Char} (hlen : xs.length = ys.length)
    (hxs : ∀ c ∈ xs, c.isDigit = true) (hys : ∀ c ∈ ys, c.isDigit = true) (a : Nat) :
    xs < ys ↔ ofDigits a xs < ofDigits a ys := by
  induction xs generalizing ys a with
  | nil =>
    obtain rfl := List.eq_nil_of_length_eq_zero hlen.symm
    exact iff_of_false (List.not_lt_nil _) (Nat.lt_irrefl _)
  | cons x xs ih =>
    cases ys with
    | nil => cases hlen
    | cons y ys =>
      have hlen' : xs.length = ys.length := Nat.succ.inj hlen
      have hxs' : ∀ c ∈ xs, c.isDigit = true := fun c hc => hxs c (.tail x hc)
      have hys' : ∀ c ∈ ys, c.isDigit = true := fun c hc => hys c (.tail y hc)
      have hx := (Char.isDigit_iff_toNat.mp (hxs x List.mem_cons_self)).1
      have hy := (Char.isDigit_iff_toNat.mp (hys y List.mem_cons_self)).1
      rw [List.cons_lt_cons_iff]
      show _ ↔ ofDigits (10 * a + (x.toNat - '0'.toNat)) xs <
        ofDigits (10 * a + (y.toNat - '0'.toNat)) ys
      rcases Nat.lt_trichotomy x.toNat y.toNat with hlt | heq | hgt
      · exact iff_of_true (.inl hlt) (ofDigits_lt_of_lt hlen' hxs' (by omega))
      · obtain rfl : x = y := Char.toNat_inj.mp heq
        rw [← ih hlen' hxs' hys']
        exact ⟨fun h => (h.resolve_left (Nat.lt_irrefl _)).2, fun h => .inr ⟨rfl, h⟩⟩
      · refine iff_of_false ?_ (Nat.lt_asymm (ofDigits_lt_of_lt hlen'.symm hys' (by omega)))
        rintro (hlt | ⟨rfl, _⟩)
        · exact Nat.lt_asymm hgt hlt
        · exact Nat.lt_irrefl _ hgt

theorem padded_lt_iff {width a b : Nat} (hwidth : 0 < width) (ha : a < 10 ^ width)
    (hb : b < 10 ^ width) : padded width a < padded width b ↔ a < b := by
  have hlen : (padded width a).length = (padded width b).length := by
    rw [length_padded hwidth ha, length_padded hwidth hb]
  rw [lt_iff_ofDigits_lt hlen (fun _ => isDigit_of_mem_padded) (fun _ => isDigit_of_mem_padded) 0,
    ofDigits_padded, ofDigits_padded]

theorem append_lt_append_iff {xs ys us vs : List Char} (hlen : xs.length = ys.length) :
    xs ++ us < ys ++ vs ↔ xs < ys ∨ xs = ys ∧ us < vs := by
  induction xs generalizing ys with
  | nil =>
    obtain rfl := List.eq_nil_of_length_eq_zero hlen.symm
    simp
  | cons x xs ih =>
    cases ys with
    | nil => cases hlen
    | cons y ys =>
      simp only [List.cons_append, List.cons_lt_cons_iff, ih (Nat.succ.inj hlen), List.cons.injEq]
      tauto

/-- Padded numbers in front of other texts are compared first. -/
theorem padded_append_lt_append_iff {width a b : Nat} (hwidth : 0 < width) (ha : a < 10 ^ width)
    (hb : b < 10 ^ width) {us vs : List Char} :
    padded width a ++ us < padded width b ++ vs ↔ a < b ∨ a = b ∧ us < vs := by
  have hlen : (padded width a).length = (padded width b).length := by
    rw [length_padded hwidth ha, length_padded hwidth hb]
  have hinj : padded width a = padded width b ↔ a = b := by
    refine ⟨fun h => ?_, fun h => h ▸ rfl⟩
    rw [← ofDigits_padded width a, h, ofDigits_padded]
  rw [append_lt_append_iff hlen, padded_lt_iff hwidth ha hb, hinj]

/-- Padded numbers in front of a mark are compared first. -/
theorem padded_append_lt_iff {width a b : Nat} (hwidth : 0 < width) (ha : a < 10 ^ width)
    (hb : b < 10 ^ width) (c : Char) {us vs : List Char} :
    padded width a ++ c :: us < padded width b ++ c :: vs ↔ a < b ∨ a = b ∧ us < vs := by
  have hmark : c :: us < c :: vs ↔ us < vs := by simp
  rw [padded_append_lt_append_iff hwidth ha hb, hmark]

/-! ## Rows of any length -/

theorem lt_of_isDigit {c : Char} (hc : c.isDigit = true) : '-' < c := by
  show '-'.toNat < c.toNat
  have hlow := (Char.isDigit_iff_toNat.mp hc).1
  have hmark : '-'.toNat < '0'.toNat := by decide
  omega

/-- A hyphen ends a row of digits: it is below all of them, so a row that ends earlier is
    still the lesser one. -/
theorem digits_append_lt_iff {xs ys us vs : List Char} (hxs : ∀ c ∈ xs, c.isDigit = true)
    (hys : ∀ c ∈ ys, c.isDigit = true) :
    xs ++ '-' :: us < ys ++ '-' :: vs ↔ xs < ys ∨ xs = ys ∧ us < vs := by
  induction xs generalizing ys with
  | nil =>
    cases ys with
    | nil => simp
    | cons y ys =>
      have hy := lt_of_isDigit (hys y List.mem_cons_self)
      exact iff_of_true (List.cons_lt_cons_iff.mpr (.inl hy)) (.inl (List.nil_lt_cons y ys))
  | cons x xs ih =>
    have hx := lt_of_isDigit (hxs x List.mem_cons_self)
    cases ys with
    | nil =>
      refine iff_of_false ?_ ?_
      · show ¬ x :: (xs ++ '-' :: us) < '-' :: vs
        rw [List.cons_lt_cons_iff]
        rintro (hlt | ⟨rfl, _⟩)
        · exact Nat.lt_asymm hx hlt
        · exact Nat.lt_irrefl _ hx
      · rintro (hlt | ⟨heq, _⟩)
        · exact List.not_lt_nil _ hlt
        · cases heq
    | cons y ys =>
      simp only [List.cons_append, List.cons_lt_cons_iff, List.cons.injEq,
        ih (fun c hc => hxs c (.tail x hc)) (fun c hc => hys c (.tail y hc))]
      tauto

theorem isDigit_of_mem_natText {n : Nat} {c : Char} (hc : c ∈ natText n) : c.isDigit = true :=
  Nat.isDigit_of_mem_toDigits (by decide) (by decide) hc

/-- A number that fills its width is not padded. -/
theorem padded_of_le {width n : Nat} (hwidth : 0 < width) (hn : 10 ^ width ≤ n) :
    padded (width + 1) n = natText n := by
  have hlong : ¬ (natText n).length ≤ width := by
    rw [natText, Nat.length_toDigits_le_iff (by decide) hwidth]
    omega
  have hnone : width + 1 - (natText n).length = 0 := by omega
  simp only [padded, hnone, List.replicate_zero, List.nil_append]

/-- A row of digits is at least as long as the text of its number, which has no zeros in front. -/
theorem length_natText_ofDigits_le {ds : List Char} (hne : ds ≠ [])
    (hds : ∀ d ∈ ds, d.isDigit = true) : (natText (ofDigits 0 ds)).length ≤ ds.length := by
  have hlt : ofDigits 0 ds < ofDigits 1 (List.replicate ds.length '0') :=
    ofDigits_lt_of_lt List.length_replicate.symm hds Nat.zero_lt_one
  have hpower : ofDigits 1 (List.replicate ds.length '0') = 10 ^ ds.length * 1 :=
    Nat.ofDigitChars_replicate_zero
  rw [hpower, Nat.mul_one] at hlt
  exact (Nat.length_toDigits_le_iff (by decide) (List.length_pos_of_ne_nil hne)).mpr hlt

theorem natText_inj {a b : Nat} : natText a = natText b ↔ a = b := by
  refine ⟨fun h => ?_, fun h => h ▸ rfl⟩
  have hvalue : ∀ n, Nat.ofDigitChars 10 (natText n) 0 = n := fun n =>
    Nat.ofDigitChars_toDigits (by decide) (by decide)
  rw [← hvalue a, h, hvalue]

end DocQuery.Decimal
