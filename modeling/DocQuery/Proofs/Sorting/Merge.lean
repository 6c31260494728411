-- SUMMARY: Searches find where the items that pass end, and a merge of two sorted rows is the two rows sorted.
import DocQuery.Proofs.Sorting.Kept
import DocQuery.Sorting.Merge

/-!
# Merges

A search in a row whose front passes a test finds the end of that front, whichever items it
tests. So a leap takes just those items that come before the next one of the other row. What
a merge has given so far is in order and comes before everything that is left, and what is
left is a merge to be done.
-/

namespace DocQuery.Sorting

variable {α : Type} {m : Type → Type} [Monad m]

/-! ## Searches -/

/-- The first `n` items of a row pass a test, and no others do. -/
structure Splits (passes : α → Bool) (xs : List α) (n : Nat) : Prop where
  le : n ≤ xs.length
  passes_iff : ∀ i (h : i < xs.length), passes xs[i] = true ↔ i < n

/-- The items that pass a test stand in front of those that fail it. -/
def IsFront (passes : α → Bool) (xs : List α) : Prop :=
  xs.Pairwise fun a b => passes b = true → passes a = true

theorem Splits.none (passes : α → Bool) : Splits passes [] 0 :=
  ⟨Nat.le_refl 0, fun i h => absurd h (Nat.not_lt_zero i)⟩

section Search

variable [LawfulMonad m] {test : α → m Bool} {passes : α → Bool} {xs : List α} {i n : Nat} {x : α}

theorem Splits.pass (h : Splits passes xs n) : ∀ x ∈ xs.take n, passes x = true := by
  intro x hx
  obtain ⟨i, hi, rfl⟩ := List.mem_take_iff_getElem.mp hx
  exact (h.passes_iff i (by omega)).mpr (by omega)

theorem Splits.fail (h : Splits passes xs n) : ∀ x ∈ xs.drop n, passes x = false := by
  intro x hx
  obtain ⟨i, hi, rfl⟩ := List.mem_drop_iff_getElem.mp hx
  rw [← Bool.not_eq_true, h.passes_iff]
  omega

theorem IsFront.passes_of_le (h : IsFront passes xs) {j : Nat} (hj : j < xs.length) (hij : i ≤ j)
    (hpass : passes xs[j] = true) : passes xs[i] = true := by
  rcases Nat.eq_or_lt_of_le hij with rfl | hlt
  · exact hpass
  · exact List.pairwise_iff_getElem.mp h i j (by omega) hj hlt hpass

/-- The end of the front lies behind an item that passes. -/
theorem Splits.of_drop (hfront : IsFront passes xs) (hx : xs[i]? = some x)
    (hpass : passes x = true) (h : Splits passes (xs.drop (i + 1)) n) :
    Splits passes xs (i + 1 + n) := by
  obtain ⟨hi, rfl⟩ := List.getElem?_eq_some_iff.mp hx
  have hle := h.le
  rw [List.length_drop] at hle
  refine ⟨by omega, fun j hj => ?_⟩
  rcases Nat.lt_or_ge i j with hlt | hge
  · have hrest := h.passes_iff (j - (i + 1)) (by rw [List.length_drop]; omega)
    simp only [List.getElem_drop, Nat.add_sub_cancel' (Nat.succ_le_of_lt hlt)] at hrest
    rw [hrest]
    omega
  · exact iff_of_true (hfront.passes_of_le hi hge hpass) (by omega)

/-- The end of the front lies in front of an item that fails. -/
theorem Splits.of_take (hfront : IsFront passes xs) (hx : xs[i]? = some x)
    (hfail : passes x = false) (h : Splits passes (xs.take i) n) : Splits passes xs n := by
  obtain ⟨hi, rfl⟩ := List.getElem?_eq_some_iff.mp hx
  have hle := h.le
  rw [List.length_take] at hle
  refine ⟨by omega, fun j hj => ?_⟩
  rcases Nat.lt_or_ge j i with hlt | hge
  · have hrest := h.passes_iff j (by rw [List.length_take]; omega)
    rwa [List.getElem_take] at hrest
  · refine iff_of_false (fun hpass => ?_) (by omega)
    simp [hfront.passes_of_le hj hge hpass] at hfail

/-- A search by halving finds the end of the front. -/
theorem halving_splits {xs : List α} (lie : Lie) (htest : ∀ x ∈ xs, test x = pure (passes x))
    (hfront : IsFront passes xs) : ∃ n, halving lie test xs = pure n ∧ Splits passes xs n := by
  induction hlength : xs.length using Nat.strongRecOn generalizing xs with
  | ind length ih =>
    subst hlength
    rw [halving]
    split
    · rename_i hnone
      have hnil : xs = [] := by
        rw [List.getElem?_eq_none_iff] at hnone
        rw [← List.length_eq_zero_iff]
        cases lie <;> simp only [Lie.middle] at hnone <;> omega
      subst hnil
      exact ⟨0, rfl, .none passes⟩
    · rename_i x hx
      obtain ⟨hi, hget⟩ := List.getElem?_eq_some_iff.mp hx
      have hmem : x ∈ xs := hget ▸ List.getElem_mem hi
      simp only [htest x hmem, pure_bind]
      cases hpass : passes x with
      | true =>
        obtain ⟨n, hn, hsplits⟩ := ih (xs.drop (lie.middle xs.length + 1)).length
          (by rw [List.length_drop]; omega) (fun y hy => htest y (List.mem_of_mem_drop hy))
          (hfront.sublist (List.drop_sublist _ xs)) rfl
        exact ⟨lie.middle xs.length + 1 + n, by simp [hn], hsplits.of_drop hfront hx hpass⟩
      | false =>
        obtain ⟨n, hn, hsplits⟩ := ih (xs.take (lie.middle xs.length)).length
          (by rw [List.length_take]; omega) (fun y hy => htest y (List.mem_of_mem_take hy))
          (hfront.sublist (List.take_sublist _ xs)) rfl
        exact ⟨n, by simp [hn], hsplits.of_take hfront hx hpass⟩

/-- A search by growing leaps finds the end of the front. -/
theorem leapsFrom_splits {xs : List α} (lie : Lie) (htest : ∀ x ∈ xs, test x = pure (passes x))
    (hfront : IsFront passes xs) (step : Nat) :
    ∃ n, leapsFrom lie test step xs = pure n ∧ Splits passes xs n := by
  induction hlength : xs.length using Nat.strongRecOn generalizing xs step with
  | ind length ih =>
    subst hlength
    rw [leapsFrom]
    split
    · exact halving_splits lie htest hfront
    · rename_i x hx
      obtain ⟨hi, hget⟩ := List.getElem?_eq_some_iff.mp hx
      have hmem : x ∈ xs := hget ▸ List.getElem_mem hi
      simp only [htest x hmem, pure_bind]
      cases hpass : passes x with
      | true =>
        obtain ⟨n, hn, hsplits⟩ := ih (xs.drop (step + 1)).length
          (by rw [List.length_drop]; omega) (fun y hy => htest y (List.mem_of_mem_drop hy))
          (hfront.sublist (List.drop_sublist _ xs)) (2 * step + 1) rfl
        exact ⟨step + 1 + n, by simp [hn], hsplits.of_drop hfront hx hpass⟩
      | false =>
        obtain ⟨n, hn, hsplits⟩ := halving_splits lie
          (fun y hy => htest y (List.mem_of_mem_take hy))
          (hfront.sublist (List.take_sublist step xs))
        exact ⟨n, by simp [hn], hsplits.of_take hfront hx hpass⟩

/-- A search by leaps finds the end of the front. -/
theorem leaps_splits {xs : List α} (lie : Lie) (htest : ∀ x ∈ xs, test x = pure (passes x))
    (hfront : IsFront passes xs) : ∃ n, leaps lie test xs = pure n ∧ Splits passes xs n := by
  cases xs with
  | nil => exact ⟨0, rfl, .none passes⟩
  | cons x xs =>
    have hx : (x :: xs)[0]? = some x := rfl
    simp only [leaps, htest x List.mem_cons_self, pure_bind]
    cases hpass : passes x with
    | true =>
      obtain ⟨n, hn, hsplits⟩ := leapsFrom_splits lie
        (fun y hy => htest y (List.mem_cons_of_mem x hy)) (List.pairwise_cons.mp hfront).2 0
      have hwhole := Splits.of_drop hfront hx hpass (n := n) (by simpa using hsplits)
      exact ⟨n + 1, by simp [hn], by simpa [Nat.add_comm] using hwhole⟩
    | false =>
      exact ⟨0, by simp, Splits.of_take hfront hx hpass (.none passes)⟩

end Search

variable {compares : α → α → m Bool} {less : α → α → Bool} {P : α → Prop}

section NotAbove

variable {xs : List α} {y : α}

/-- In a sorted row the items that an item does not lie below stand in front. -/
theorem Rises.isFront (h : Rises less xs) (ho : Orders compares less P) (hP : ∀ x ∈ xs, P x)
    (hy : P y) : IsFront (fun a => !less y a) xs :=
  h.imp_of_mem fun ha hb hba hyb => by
    rw [Bool.not_eq_true'] at hyb ⊢
    exact ho.le_trans (hP _ ha) (hP _ hb) hy hba hyb

/-- The first `n` items do not lie above `y`, the others do. -/
theorem Splits.notAbove {n : Nat} (h : Splits (fun a => !less y a) xs n) :
    (∀ a ∈ xs.take n, less y a = false) ∧ ∀ a ∈ xs.drop n, less y a = true :=
  ⟨fun a ha => by simpa using h.pass a ha, fun a ha => by simpa using h.fail a ha⟩

variable [LawfulMonad m]

theorem halving_notAbove (ho : Orders compares less P) (lie : Lie) (hP : ∀ x ∈ xs, P x)
    (h : Rises less xs) (hy : P y) :
    ∃ n, halving lie (fun a => not <$> compares y a) xs = pure n ∧
      Splits (fun a => !less y a) xs n :=
  halving_splits lie (fun a ha => by rw [ho.answers hy (hP a ha), map_pure]) (h.isFront ho hP hy)

theorem leaps_notAbove (ho : Orders compares less P) (lie : Lie) (hP : ∀ x ∈ xs, P x)
    (h : Rises less xs) (hy : P y) :
    ∃ n, leaps lie (fun a => not <$> compares y a) xs = pure n ∧
      Splits (fun a => !less y a) xs n :=
  leaps_splits lie (fun a ha => by rw [ho.answers hy (hP a ha), map_pure]) (h.isFront ho hP hy)

end NotAbove

/-! ## Taking items -/

/-- Two sorted rows are there to be merged: the last item of the lasting row comes last. -/
structure Mergeable (less : α → α → Bool) (P : α → Prop) (leading lasting : List α) : Prop where
  has : ∀ x ∈ lasting ++ leading, P x
  leadingRises : Rises less leading
  lastingRises : Rises less lasting
  last : ∃ x, lasting.getLast? = some x ∧ ∀ y ∈ leading, less y x = true

section Taking

variable {xs ys r : List α}

/-- Items of the leading row that lie below the lasting row come first. -/
theorem Sorts.takeLeading (h : Orders compares less P) (as : List α)
    (hr : Sorts less P (xs ++ ys) r)
    (hP : ∀ x ∈ xs ++ (as ++ ys), P x) (hleading : Rises less (as ++ ys))
    (hbelow : ∀ a ∈ as, ∀ x ∈ xs, less a x = true) :
    Sorts less P (xs ++ (as ++ ys)) (as ++ r) := by
  simp only [List.forall_mem_append] at hP
  obtain ⟨hxs, has, hys⟩ := hP
  obtain ⟨hrises, -, hbefore⟩ := rises_append.mp hleading
  refine ⟨?_, rises_append.mpr ⟨hrises, hr.rises, fun a ha b hb => ?_⟩⟩
  · have hmoved := (Keeps.exchange h hxs has hbelow).appendRight ys
    rw [List.append_assoc, List.append_assoc] at hmoved
    exact hmoved.trans (hr.keeps.appendLeft as)
  · rcases List.mem_append.mp (hr.keeps.perm.subset hb) with hb | hb
    · exact h.asymm (has a ha) (hxs b hb) (hbelow a ha b hb)
    · exact hbefore a ha b hb

/-- Items of the lasting row that nothing in the leading row lies below come first. -/
theorem Sorts.takeLasting (as : List α) (hr : Sorts less P (xs ++ ys) r)
    (hlasting : Rises less (as ++ xs))
    (hbelow : ∀ a ∈ as, ∀ y ∈ ys, less y a = false) :
    Sorts less P (as ++ xs ++ ys) (as ++ r) := by
  obtain ⟨hrises, -, hbefore⟩ := rises_append.mp hlasting
  refine ⟨?_, rises_append.mpr ⟨hrises, hr.rises, fun a ha b hb => ?_⟩⟩
  · rw [List.append_assoc]
    exact hr.keeps.appendLeft as
  · rcases List.mem_append.mp (hr.keeps.perm.subset hb) with hb | hb
    · exact hbefore a ha b hb
    · exact hbelow a ha b hb

end Taking

namespace Mergeable

variable {leading lasting : List α} {y : α}

theorem has_leading (h : Mergeable less P leading lasting) : ∀ y ∈ leading, P y :=
  fun y hy => h.has y (List.mem_append_right _ hy)

theorem has_lasting (h : Mergeable less P leading lasting) : ∀ x ∈ lasting, P x :=
  fun x hx => h.has x (List.mem_append_left _ hx)

/-- The items behind the first `n` of the leading row are left. -/
theorem drop_leading (h : Mergeable less P leading lasting) (n : Nat) :
    Mergeable less P (leading.drop n) lasting where
  has x hx := h.has x ((List.Sublist.append_left (List.drop_sublist n leading) _).subset hx)
  leadingRises := h.leadingRises.sublist (List.drop_sublist n leading)
  lastingRises := h.lastingRises
  last := by
    obtain ⟨x, hx, hbelow⟩ := h.last
    exact ⟨x, hx, fun y hy => hbelow y (List.mem_of_mem_drop hy)⟩

/-- The items behind the first `n` of the lasting row are left, the last one among them. -/
theorem drop_lasting (h : Mergeable less P leading lasting) {n : Nat} (hn : n < lasting.length) :
    Mergeable less P leading (lasting.drop n) where
  has x hx := h.has x ((List.Sublist.append_right (List.drop_sublist n lasting) _).subset hx)
  leadingRises := h.leadingRises
  lastingRises := h.lastingRises.sublist (List.drop_sublist n lasting)
  last := by
    obtain ⟨x, hx, hbelow⟩ := h.last
    refine ⟨x, ?_, hbelow⟩
    rw [List.getLast?_drop, if_neg (by omega), hx]

/-- An item that lies below the first one of the lasting row lies below all of it. -/
theorem below_lasting {compares : α → α → m Bool} (ho : Orders compares less P) {x : α}
    (h : Mergeable less P leading (x :: lasting)) (hy : P y) (hyx : less y x = true) :
    ∀ a ∈ x :: lasting, less y a = true := by
  intro a ha
  rcases List.mem_cons.mp ha with rfl | hmem
  · exact hyx
  · exact ho.trans_le hy (h.has_lasting x List.mem_cons_self) (h.has_lasting a ha) hyx
      ((List.pairwise_cons.mp h.lastingRises).1 a hmem)

/-- An item that the first one of the leading row does not lie below has none of it below. -/
theorem not_below_leading {compares : α → α → m Bool} (ho : Orders compares less P) {x : α}
    (h : Mergeable less P (y :: leading) lasting) (hx : P x) (hyx : less y x = false) :
    ∀ b ∈ y :: leading, less b x = false := by
  intro b hb
  rcases List.mem_cons.mp hb with rfl | hmem
  · exact hyx
  · exact ho.le_trans hx (h.has_leading y List.mem_cons_self) (h.has_leading b hb) hyx
      ((List.pairwise_cons.mp h.leadingRises).1 b hmem)

/-- When the leading row is used up, or only the last item of the other is left, the rows
    follow each other. -/
theorem sorts_of_over (ho : Orders compares less P) (h : Mergeable less P leading lasting)
    (hover : leading = [] ∨ lasting.length ≤ 1) :
    Sorts less P (lasting ++ leading) (leading ++ lasting) := by
  obtain ⟨x, hx, hbelow⟩ := h.last
  rcases hover with rfl | hover
  · rw [List.append_nil, List.nil_append]
    exact h.lastingRises.sorts
  · obtain rfl : lasting = [x] := by
      rcases lasting with _ | ⟨x', _ | ⟨x'', xs⟩⟩
      · cases hx
      · cases hx
        rfl
      · simp at hover
    have hlast : Sorts less P ([x] ++ []) [x] := h.lastingRises.sorts
    have hmerged := hlast.takeLeading ho leading (by simpa using h.has)
      (by simpa using h.leadingRises) (by simpa using hbelow)
    simpa using hmerged

end Mergeable

/-! ## Leaps -/

namespace Leapt

/-- The number of items that are left. -/
def left (s : Leapt α) : Nat :=
  s.leading.length + s.lasting.length

theorem isOver_iff {s : Leapt α} :
    s.isOver = true ↔ s.leading = [] ∨ s.lasting.length ≤ 1 := by
  obtain ⟨given, leading, lasting, longest⟩ := s
  rcases leading with _ | ⟨y, ys⟩ <;> rcases lasting with _ | ⟨x, _ | ⟨x', xs⟩⟩ <;> simp [isOver]

/-- What leaps have given is the front of a merge, of which they have left a merge to be done. -/
structure Continues (less : α → α → Bool) (P : α → Prop) (leading lasting : List α)
    (s : Leapt α) : Prop where
  mergeable : Mergeable less P s.leading s.lasting
  sorts : ∀ r, Sorts less P (s.lasting ++ s.leading) r →
    Sorts less P (lasting ++ leading) (s.given ++ r)

namespace Continues

variable {leading lasting ys xs given : List α} {longest n : Nat}

/-- The merge goes on behind items of the leading row that lie below the lasting row. -/
theorem takeLeading (ho : Orders compares less P)
    (h : Continues less P leading lasting ⟨given, ys, xs, longest⟩)
    (hbelow : ∀ a ∈ ys.take n, ∀ x ∈ xs, less a x = true) (longest' : Nat) :
    Continues less P leading lasting ⟨given ++ ys.take n, ys.drop n, xs, longest'⟩ := by
  refine ⟨h.mergeable.drop_leading n, fun r hr => ?_⟩
  have hys : ys.take n ++ ys.drop n = ys := List.take_append_drop n ys
  have hmerged := hr.takeLeading ho (ys.take n) (by rw [hys]; exact h.mergeable.has)
    (by rw [hys]; exact h.mergeable.leadingRises) hbelow
  rw [hys] at hmerged
  rw [List.append_assoc]
  exact h.sorts _ hmerged

/-- The merge goes on behind items of the lasting row that nothing in the leading row lies
    below. The last item stays. -/
theorem takeLasting (h : Continues less P leading lasting ⟨given, ys, xs, longest⟩)
    (hn : n < xs.length) (hbelow : ∀ a ∈ xs.take n, ∀ y ∈ ys, less y a = false)
    (longest' : Nat) :
    Continues less P leading lasting ⟨given ++ xs.take n, ys, xs.drop n, longest'⟩ := by
  refine ⟨h.mergeable.drop_lasting hn, fun r hr => ?_⟩
  have hxs : xs.take n ++ xs.drop n = xs := List.take_append_drop n xs
  have hmerged := hr.takeLasting (xs.take n)
    (by rw [hxs]; exact h.mergeable.lastingRises) hbelow
  rw [hxs] at hmerged
  rw [List.append_assoc]
  exact h.sorts _ hmerged

end Continues

/-- A leap leads to `s`: the merge goes on, with fewer items if something was left to choose. -/
structure Leads (less : α → α → Bool) (P : α → Prop) (leading lasting : List α)
    (before s : Leapt α) : Prop where
  continues : s.Continues less P leading lasting
  left_le : s.left ≤ before.left
  left_lt : before.isOver = false → s.left < before.left

section Leap

variable {leading lasting given ys xs : List α} {x x' y : α} {longest n : Nat}

theorem Continues.leads_self {s : Leapt α} (h : s.Continues less P leading lasting)
    (hover : s.isOver = true) : Leads less P leading lasting s s :=
  ⟨h, Nat.le_refl _, fun hnot => by simp [hover] at hnot⟩

theorem Leads.trans {before s s' : Leapt α} (h : Leads less P leading lasting before s)
    (h' : Leads less P leading lasting s s') : Leads less P leading lasting before s' :=
  ⟨h'.continues, Nat.le_trans h'.left_le h.left_le,
    fun hover => Nat.lt_of_le_of_lt h'.left_le (h.left_lt hover)⟩

/-- The leading row leaps to the next item of the lasting row, which then is taken too, unless
    the leading row is used up. -/
theorem takeLeading_leads (ho : Orders compares less P)
    (h : Continues less P leading lasting ⟨given, y :: ys, x :: x' :: xs, longest⟩)
    (hn : Splits (less · x) (y :: ys) n) :
    Leads less P leading lasting ⟨given, y :: ys, x :: x' :: xs, longest⟩
      (takeLeading ⟨given, y :: ys, x :: x' :: xs, longest⟩ n) := by
  have hbelow : ∀ a ∈ (y :: ys).take n, ∀ b ∈ x :: x' :: xs, less a b = true := fun a ha =>
    h.mergeable.below_lasting ho (h.mergeable.has_leading a (List.mem_of_mem_take ha))
      (hn.pass a ha)
  have htaken := h.takeLeading ho hbelow (max longest n)
  have hlength : ((y :: ys).drop n).length = ys.length + 1 - n := List.length_drop
  cases hdrop : (y :: ys).drop n with
  | nil =>
    rw [hdrop] at htaken hlength
    have hs : takeLeading ⟨given, y :: ys, x :: x' :: xs, longest⟩ n =
        ⟨given ++ (y :: ys).take n, [], x :: x' :: xs, max longest n⟩ := by
      simp [takeLeading, hdrop]
    rw [hs]
    exact ⟨htaken, by simp [left], fun _ => by simp [left]⟩
  | cons z zs =>
    rw [hdrop] at htaken hlength
    have hs : takeLeading ⟨given, y :: ys, x :: x' :: xs, longest⟩ n =
        ⟨given ++ (y :: ys).take n ++ [x], z :: zs, x' :: xs, max longest n⟩ := by
      simp [takeLeading, hdrop]
    rw [hs]
    have hnone : ∀ a ∈ (x :: x' :: xs).take 1, ∀ b ∈ z :: zs, less b a = false := by
      intro a ha b hb
      obtain rfl := List.mem_singleton.mp ha
      exact hn.fail b (hdrop ▸ hb)
    refine ⟨htaken.takeLasting (n := 1) (by simp) hnone _, ?_, fun _ => ?_⟩ <;>
    · simp only [left, List.length_cons] at hlength ⊢
      omega

/-- The lasting row leaps to the next item of the leading row, which then is taken too, unless
    only the last item of the lasting row is left. -/
theorem takeLasting_leads (ho : Orders compares less P)
    (h : Continues less P leading lasting ⟨given, y :: ys, x :: x' :: xs, longest⟩)
    (hn : Splits (fun a => !less y a) (x :: x' :: xs) n) :
    Leads less P leading lasting ⟨given, y :: ys, x :: x' :: xs, longest⟩
      (takeLasting ⟨given, y :: ys, x :: x' :: xs, longest⟩ n) := by
  obtain ⟨hpass, hfail⟩ := hn.notAbove
  have hnone : ∀ a ∈ (x :: x' :: xs).take n, ∀ b ∈ y :: ys, less b a = false := fun a ha =>
    h.mergeable.not_below_leading ho (h.mergeable.has_lasting a (List.mem_of_mem_take ha))
      (hpass a ha)
  have hlast : n < (x :: x' :: xs).length := by
    obtain ⟨z, (hz : (x :: x' :: xs).getLast? = some z), hbelow⟩ := h.mergeable.last
    rw [List.getLast?_eq_getElem?] at hz
    obtain ⟨hi, rfl⟩ := List.getElem?_eq_some_iff.mp hz
    have hpasses := hn.passes_iff _ hi
    rw [hbelow y List.mem_cons_self] at hpasses
    have hle := hn.le
    simp only [Bool.not_true, Bool.false_eq_true, false_iff] at hpasses
    omega
  have htaken := h.takeLasting hlast hnone (max longest n)
  have hlength : ((x :: x' :: xs).drop n).length = xs.length + 2 - n := List.length_drop
  rcases hdrop : (x :: x' :: xs).drop n with _ | ⟨b, _ | ⟨b', bs⟩⟩
  · rw [hdrop] at hlength
    simp only [List.length_nil, List.length_cons] at hlength hlast
    omega
  · rw [hdrop] at htaken hlength
    have hs : takeLasting ⟨given, y :: ys, x :: x' :: xs, longest⟩ n =
        ⟨given ++ (x :: x' :: xs).take n, y :: ys, [b], max longest n⟩ := by
      simp [takeLasting, hdrop]
    rw [hs]
    exact ⟨htaken, by simp [left], fun _ => by simp [left]⟩
  · rw [hdrop] at htaken hlength
    have hs : takeLasting ⟨given, y :: ys, x :: x' :: xs, longest⟩ n =
        ⟨given ++ (x :: x' :: xs).take n ++ [y], ys, b :: b' :: bs, max longest n⟩ := by
      simp [takeLasting, hdrop]
    rw [hs]
    have hbelow : ∀ a ∈ (y :: ys).take 1, ∀ c ∈ b :: b' :: bs, less a c = true := by
      intro a ha
      obtain rfl := List.mem_singleton.mp ha
      exact htaken.mergeable.below_lasting ho (h.mergeable.has_leading a List.mem_cons_self)
        (hfail b (hdrop ▸ List.mem_cons_self))
    refine ⟨htaken.takeLeading (n := 1) ho hbelow _, ?_, fun _ => ?_⟩ <;>
    · simp only [left, List.length_cons] at hlength ⊢
      omega

variable [LawfulMonad m]

/-- A leap of the leading row, if something is left to choose. -/
theorem leapLeading_leads (ho : Orders compares less P) (lie : Lie) {s : Leapt α}
    (h : s.Continues less P leading lasting) :
    ∃ s', leapLeading lie compares s = pure s' ∧ Leads less P leading lasting s s' := by
  obtain ⟨given, ys, xs, longest⟩ := s
  match ys, xs, h with
  | y :: ys, x :: x' :: xs, h =>
    have hys := h.mergeable.has_leading
    have hx : P x := h.mergeable.has_lasting x List.mem_cons_self
    have hfront : IsFront (less · x) (y :: ys) :=
      h.mergeable.leadingRises.imp_of_mem fun ha hb hba hbx =>
        ho.le_trans_lt (hys _ ha) (hys _ hb) hx hba hbx
    obtain ⟨n, hn, hsplits⟩ := leaps_splits lie (fun b hb => ho.answers (hys b hb) hx) hfront
    exact ⟨_, by simp [leapLeading, hn], takeLeading_leads ho h hsplits⟩
  | [], _, h => exact ⟨_, rfl, h.leads_self rfl⟩
  | _ :: _, [], h => exact ⟨_, rfl, h.leads_self rfl⟩
  | _ :: _, [_], h => exact ⟨_, rfl, h.leads_self rfl⟩

/-- A leap of the lasting row, if something is left to choose. -/
theorem leapLasting_leads (ho : Orders compares less P) (lie : Lie) {s : Leapt α}
    (h : s.Continues less P leading lasting) :
    ∃ s', leapLasting lie compares s = pure s' ∧ Leads less P leading lasting s s' := by
  obtain ⟨given, ys, xs, longest⟩ := s
  match ys, xs, h with
  | y :: ys, x :: x' :: xs, h =>
    obtain ⟨n, hn, hsplits⟩ := leaps_notAbove ho lie h.mergeable.has_lasting
      h.mergeable.lastingRises (h.mergeable.has_leading y List.mem_cons_self)
    exact ⟨_, by simp [leapLasting, hn], takeLasting_leads ho h hsplits⟩
  | [], _, h => exact ⟨_, rfl, h.leads_self rfl⟩
  | _ :: _, [], h => exact ⟨_, rfl, h.leads_self rfl⟩
  | _ :: _, [_], h => exact ⟨_, rfl, h.leads_self rfl⟩

/-- A round takes at least one item if something is left to choose. -/
theorem round_leads (ho : Orders compares less P) (lie : Lie)
    (h : Mergeable less P leading lasting) :
    ∃ s, round lie compares leading lasting = pure s ∧
      Leads less P leading lasting ⟨[], leading, lasting, 0⟩ s := by
  have hstart : Continues less P leading lasting ⟨[], leading, lasting, 0⟩ := ⟨h, fun _ hr => hr⟩
  cases lie with
  | rising =>
    obtain ⟨s, hs, hfirst⟩ := leapLasting_leads ho .rising hstart
    obtain ⟨s', hs', hsecond⟩ := leapLeading_leads ho .rising hfirst.continues
    exact ⟨s', by simp [round, hs, hs'], hfirst.trans hsecond⟩
  | turned =>
    obtain ⟨s, hs, hfirst⟩ := leapLeading_leads ho .turned hstart
    obtain ⟨s', hs', hsecond⟩ := leapLasting_leads ho .turned hfirst.continues
    exact ⟨s', by simp [round, hs, hs'], hfirst.trans hsecond⟩

end Leap

end Leapt

/-! ## Merges -/

section Merge

/-- What was cut off at both ends is put back around a merge: it does not lie below `y`, which
    nothing in the first run's end lies above, and above `x` in the same way. -/
theorem Sorts.around (ho : Orders compares less P) (early late : List α) {front back r : List α}
    {x y : α}
    (hP : ∀ z ∈ (early ++ front) ++ (back ++ late), P z) (hx : P x) (hy : P y)
    (hxs : Rises less (early ++ front)) (hys : Rises less (back ++ late))
    (hr : Sorts less P (front ++ back) r)
    (hearly : ∀ a ∈ early, less y a = false) (hyback : ∀ b ∈ back ++ late, less b y = false)
    (hfront : ∀ a ∈ front, less x a = false) (hlate : ∀ b ∈ late, less b x = false) :
    Sorts less P ((early ++ front) ++ (back ++ late)) (early ++ r ++ late) := by
  simp only [List.forall_mem_append] at hP
  obtain ⟨⟨hPearly, hPfront⟩, hPback, hPlate⟩ := hP
  obtain ⟨hearlyRises, -, hearlyFront⟩ := rises_append.mp hxs
  obtain ⟨-, hlateRises, hbackLate⟩ := rises_append.mp hys
  have hover : ∀ a ∈ early, ∀ b ∈ back ++ late, less b a = false := fun a ha b hb =>
    ho.le_trans (hPearly a ha) hy ((List.forall_mem_append.mpr ⟨hPback, hPlate⟩) b hb)
      (hearly a ha) (hyback b hb)
  refine ⟨?_, rises_append.mpr ⟨rises_append.mpr ⟨hearlyRises, hr.rises, fun a ha b hb => ?_⟩,
    hlateRises, fun a ha b hb => ?_⟩⟩
  · have hmerged := (hr.keeps.appendLeft early).appendRight late
    simpa only [List.append_assoc] using hmerged
  · rcases List.mem_append.mp (hr.keeps.perm.subset hb) with hb | hb
    · exact hearlyFront a ha b hb
    · exact hover a ha b (List.mem_append_left _ hb)
  · rcases List.mem_append.mp ha with ha | ha
    · exact hover a ha b (List.mem_append_right _ hb)
    · rcases List.mem_append.mp (hr.keeps.perm.subset ha) with ha | ha
      · exact ho.le_trans (hPfront a ha) hx (hPlate b hb) (hfront a ha) (hlate b hb)
      · exact hbackLate a ha b hb

/-- No item of a sorted row lies below its first one. -/
theorem Rises.head_le (ho : Orders compares less P) {xs : List α} (h : Rises less xs) {x : α}
    (hP : P x) (hx : xs.head? = some x) : ∀ a ∈ xs, less a x = false := by
  obtain ⟨back, rfl⟩ := List.head?_eq_some_iff.mp hx
  intro a ha
  rcases List.mem_cons.mp ha with rfl | ha
  · exact ho.irrefl hP
  · exact (List.pairwise_cons.mp h).1 a ha

/-- No item of a sorted row lies above its last one. -/
theorem Rises.le_getLast (ho : Orders compares less P) {xs : List α} (h : Rises less xs) {x : α}
    (hP : P x) (hx : xs.getLast? = some x) : ∀ a ∈ xs, less x a = false := by
  obtain ⟨front, rfl⟩ := List.getLast?_eq_some_iff.mp hx
  intro a ha
  rcases List.mem_append.mp ha with ha | ha
  · exact (rises_append.mp h).2.2 a ha x (List.mem_singleton.mpr rfl)
  · rw [List.mem_singleton.mp ha]
    exact ho.irrefl hP

variable [LawfulMonad m]

/-- What is left of a merge is done, at whatever pace. -/
theorem mergeFrom_sorts (ho : Orders compares less P) (lie : Lie) (pace : Pace)
    (patience fuel : Nat) {leading lasting : List α} (h : Mergeable less P leading lasting)
    (hfuel : leading.length + lasting.length ≤ fuel) :
    ∃ r p, mergeFrom lie compares pace patience fuel leading lasting = pure (r, p) ∧
      Sorts less P (lasting ++ leading) r := by
  induction fuel generalizing pace patience leading lasting with
  | zero =>
    obtain ⟨x, hx, -⟩ := h.last
    obtain rfl : lasting = [] := List.length_eq_zero_iff.mp (by omega)
    cases hx
  | succ fuel ih =>
    match leading, lasting, h with
    | [], lasting, h => exact ⟨_, _, rfl, h.sorts_of_over ho (.inl rfl)⟩
    | y :: ys, [], h => exact ⟨_, _, rfl, h.sorts_of_over ho (.inr (by simp))⟩
    | y :: ys, [x], h => exact ⟨_, _, rfl, h.sorts_of_over ho (.inr (by simp))⟩
    | y :: ys, x :: x' :: xs, h =>
      simp only [List.length_cons] at hfuel
      have hy : P y := h.has_leading y List.mem_cons_self
      have hx : P x := h.has_lasting x List.mem_cons_self
      cases pace with
      | steps leadingCount lastingCount =>
        cases hyx : less y x with
        | true =>
          have hrest : Mergeable less P ys (x :: x' :: xs) := h.drop_leading 1
          obtain ⟨r, p, hr, hsorts⟩ := ih (Pace.next patience (leadingCount + 1) 0) patience
            hrest (by simp only [List.length_cons]; omega)
          refine ⟨y :: r, p, by simp [mergeFrom, ho.answers hy hx, hyx, hr],
            hsorts.takeLeading ho [y] h.has h.leadingRises fun a ha => ?_⟩
          obtain rfl := List.mem_singleton.mp ha
          exact h.below_lasting ho hy hyx
        | false =>
          have hrest : Mergeable less P (y :: ys) (x' :: xs) := h.drop_lasting (n := 1) (by simp)
          obtain ⟨r, p, hr, hsorts⟩ := ih (Pace.next patience 0 (lastingCount + 1)) patience
            hrest (by simp only [List.length_cons]; omega)
          refine ⟨x :: r, p, by simp [mergeFrom, ho.answers hy hx, hyx, hr],
            hsorts.takeLasting [x] h.lastingRises fun a ha => ?_⟩
          obtain rfl := List.mem_singleton.mp ha
          exact h.not_below_leading ho hx hyx
      | leaps =>
        obtain ⟨s, hs, hleads⟩ := Leapt.round_leads ho lie h
        have hgoes := hleads.continues
        cases hover : s.isOver with
        | true =>
          have hrest := hgoes.mergeable.sorts_of_over ho (Leapt.isOver_iff.mp hover)
          exact ⟨s.given ++ s.leading ++ s.lasting, patience, by simp [mergeFrom, hs, hover],
            List.append_assoc .. ▸ hgoes.sorts _ hrest⟩
        | false =>
          have hleft := hleads.left_lt rfl
          simp only [Leapt.left, List.length_cons] at hleft
          by_cases hpays : payingLeap ≤ s.longest
          · obtain ⟨r, p, hr, hsorts⟩ := ih .leaps (max 1 (patience - 1)) hgoes.mergeable (by omega)
            exact ⟨s.given ++ r, p, by simp [mergeFrom, hs, hover, hpays, hr], hgoes.sorts r hsorts⟩
          · obtain ⟨r, p, hr, hsorts⟩ := ih (.steps 0 0) (patience + 1) hgoes.mergeable (by omega)
            exact ⟨s.given ++ r, p, by simp [mergeFrom, hs, hover, hpays, hr], hgoes.sorts r hsorts⟩

/-- Two sorted rows are merged, the first item of the leading row in front. -/
theorem mergeRows_sorts (ho : Orders compares less P) (lie : Lie) (patience : Nat)
    {leading lasting : List α} (h : Mergeable less P leading lasting)
    (hfirst : ∀ y ∈ leading.head?, ∀ x ∈ lasting, less y x = true) :
    ∃ r p, mergeRows lie compares patience leading lasting = pure (r, p) ∧
      Sorts less P (lasting ++ leading) r := by
  cases leading with
  | nil => exact ⟨_, _, rfl, h.sorts_of_over ho (.inl rfl)⟩
  | cons y ys =>
    have hrest : Mergeable less P ys lasting := h.drop_leading 1
    obtain ⟨r, p, hr, hsorts⟩ := mergeFrom_sorts ho lie (.steps 0 0) patience
      (ys.length + lasting.length) hrest (Nat.le_refl _)
    refine ⟨y :: r, p, by simp [mergeRows, hr],
      hsorts.takeLeading ho [y] h.has h.leadingRises fun a ha => ?_⟩
    obtain rfl := List.mem_singleton.mp ha
    exact hfirst a rfl

/-- The parts of two runs that lie across each other are merged: each item of the one run lies
    above the first item of the other, and each item of the other below the last of the one. -/
theorem mergeAcross_sorts (ho : Orders compares less P) (patience : Nat) (front back : List α)
    (hP : ∀ x ∈ front ++ back, P x) (hfront : Rises less front) (hback : Rises less back)
    (hhead : ∃ y, back.head? = some y ∧ ∀ x ∈ front, less y x = true)
    (hlast : ∃ x, front.getLast? = some x ∧ ∀ y ∈ back, less y x = true) :
    ∃ r p, (if front.length ≤ back.length then
        mergeRows .rising compares patience back front
      else do
        let (falling, p) ← mergeRows .turned (fun a b => compares b a) patience front.reverse
          back.reverse
        pure (falling.reverse, p)) = pure (r, p) ∧ Sorts less P (front ++ back) r := by
  obtain ⟨y, hy, hyfront⟩ := hhead
  obtain ⟨x, hx, hxback⟩ := hlast
  split
  · refine mergeRows_sorts ho .rising patience ⟨hP, hback, hfront, x, hx, hxback⟩ ?_
    rintro y' hy' x' hx'
    cases hy.symm.trans hy'
    exact hyfront x' hx'
  · -- Turned around, the run in front leads.
    have hmergeable : Mergeable (fun a b => less b a) P front.reverse back.reverse := by
      refine ⟨fun z hz => hP z ?_, hfront.reverse, hback.reverse, y, ?_, fun z hz => ?_⟩
      · simpa [or_comm] using hz
      · rw [List.getLast?_reverse, hy]
      · exact hyfront z (List.mem_reverse.mp hz)
    obtain ⟨falling, p, hfalling, hsorts⟩ :=
      mergeRows_sorts ho.flip .turned patience hmergeable (by
        rintro x' hx' z hz
        rw [List.head?_reverse] at hx'
        cases hx.symm.trans hx'
        exact hxback z (List.mem_reverse.mp hz))
    refine ⟨falling.reverse, p, by simp [hfalling], ?_⟩
    have hturned := hsorts.reverse
    rwa [List.reverse_append, List.reverse_reverse, List.reverse_reverse] at hturned

/-- The items at the end of a run that do not lie below an item. -/
theorem exists_late (ho : Orders compares less P) {ys : List α} (hP : ∀ b ∈ ys, P b)
    (h : Rises less ys) {x : α} (hx : P x) :
    ∃ late, leaps .turned (fun b => not <$> compares b x) ys.reverse = pure late ∧
      (∀ b ∈ ys.take (ys.length - late), less b x = true) ∧
      ∀ b ∈ ys.drop (ys.length - late), less b x = false := by
  have hreverse : ∀ b ∈ ys.reverse, P b := by simpa using hP
  obtain ⟨late, hlate, hsplits⟩ := leaps_notAbove ho.flip .turned hreverse h.reverse hx
  refine ⟨late, hlate, fun b hb => ?_, fun b hb => ?_⟩
  · have hfail := hsplits.fail b (by rwa [List.drop_reverse, List.mem_reverse])
    simpa using hfail
  · have hpass := hsplits.pass b (by rwa [List.take_reverse, List.mem_reverse])
    simpa using hpass

/-- An item in front that lies below another one is not cut off with those that do not. -/
theorem head?_take_of_above {ys : List α} {k : Nat} {x y : α} (hhead : ys.head? = some y)
    (hyx : less y x = true) (habove : ∀ b ∈ ys.drop k, less b x = false) :
    (ys.take k).head? = some y := by
  obtain ⟨rest, rfl⟩ := List.head?_eq_some_iff.mp hhead
  cases k with
  | zero =>
    rw [habove y List.mem_cons_self] at hyx
    cases hyx
  | succ k => rfl

/-- Two neighbouring runs are merged. What stays where it is at both ends is cut off before. -/
theorem mergeRuns_sorts (ho : Orders compares less P) (patience : Nat) {xs ys : List α}
    (hP : ∀ x ∈ xs ++ ys, P x) (hxs : Rises less xs) (hys : Rises less ys) :
    ∃ r p, mergeRuns compares patience xs ys = pure (r, p) ∧ Sorts less P (xs ++ ys) r := by
  obtain ⟨hPxs, hPys⟩ := List.forall_mem_append.mp hP
  cases hhead : ys.head? with
  | none =>
    obtain rfl := List.head?_eq_none_iff.mp hhead
    exact ⟨xs, patience, by simp [mergeRuns], by simpa using hxs.sorts⟩
  | some y =>
    have hy : P y := hPys y (List.mem_of_mem_head? hhead)
    have hyys : ∀ b ∈ ys, less b y = false := hys.head_le ho hy hhead
    obtain ⟨early, hearly, hsplits⟩ := leaps_notAbove ho .rising hPxs hxs hy
    obtain ⟨hpass, hfail⟩ := hsplits.notAbove
    have hxsplit : xs.take early ++ xs.drop early = xs := List.take_append_drop early xs
    cases hlast : (xs.drop early).getLast? with
    | none =>
      rw [List.getLast?_eq_none_iff] at hlast
      rw [hlast, List.append_nil] at hxsplit
      refine ⟨xs ++ ys, patience, by simp [mergeRuns, hhead, hearly, hlast], .refl _,
        rises_append.mpr ⟨hxs, hys, fun a ha b hb => ?_⟩⟩
      exact ho.le_trans (hPxs a ha) hy (hPys b hb) (hpass a (by rwa [hxsplit])) (hyys b hb)
    | some x =>
      have hxmem : x ∈ xs.drop early := List.mem_of_getLast? hlast
      have hx : P x := hPxs x (List.mem_of_mem_drop hxmem)
      obtain ⟨late, hlate, hbelow, habove⟩ := exists_late ho hPys hys hx
      generalize hk : ys.length - late = k at hbelow habove
      have hysplit : ys.take k ++ ys.drop k = ys := List.take_append_drop k ys
      have hyx : less y x = true := hfail x hxmem
      have hyhead := head?_take_of_above hhead hyx habove
      obtain ⟨r, p, hr, hsorts⟩ := mergeAcross_sorts ho patience (xs.drop early) (ys.take k)
        (List.forall_mem_append.mpr ⟨fun a ha => hPxs a (List.mem_of_mem_drop ha),
          fun b hb => hPys b (List.mem_of_mem_take hb)⟩)
        (hxs.sublist (List.drop_sublist _ xs)) (hys.sublist (List.take_sublist _ ys))
        ⟨y, hyhead, hfail⟩ ⟨x, hlast, hbelow⟩
      have hfront : ∀ a ∈ xs.drop early, less x a = false :=
        Rises.le_getLast ho (hxs.sublist (List.drop_sublist _ xs)) hx hlast
      refine ⟨xs.take early ++ r ++ ys.drop k, p, ?_, ?_⟩
      · have hwhole := congrArg
          (· >>= fun s => pure (xs.take early ++ s.1 ++ ys.drop k, s.2)) hr
        simp only [mergeRuns, hhead, hearly, hlast, hlate, hk, pure_bind]
        by_cases hlong : (xs.drop early).length ≤ (ys.take k).length
        · simpa only [if_pos hlong, pure_bind] using hwhole
        · simpa only [if_neg hlong, pure_bind, bind_assoc] using hwhole
      · have haround := Sorts.around ho (xs.take early) (ys.drop k)
          (by rwa [hxsplit, hysplit]) hx hy (by rwa [hxsplit]) (by rwa [hysplit]) hsorts hpass
          (by rwa [hysplit]) hfront habove
        rwa [hxsplit, hysplit] at haround

end Merge

end DocQuery.Sorting
