-- SUMMARY: Comparisons that put items in order, and rows with the items of another where like items keep their order.
import Mathlib.Data.List.Perm.Basic

/-!
# Rows in order

A comparison orders some items when it answers for all of them and what it does not tell
apart lies at one height. A sort of such items gives a row with the same items, in order, in
which items at one height stand as they did before.

Every step of a sort exchanges neighbouring stretches of the row, each item of one below each
item of the other. No such exchange moves an item past one at its own height.
-/

namespace DocQuery.Sorting

variable {α : Type} {m : Type → Type} [Monad m]

/-! ## Orders -/

/-- A comparison orders the items with a property: it answers for any two of them, and what it
    does not tell apart lies at one height. -/
structure Orders (compares : α → α → m Bool) (less : α → α → Bool) (P : α → Prop) : Prop where
  answers : ∀ {a b}, P a → P b → compares a b = pure (less a b)
  asymm : ∀ {a b}, P a → P b → less a b = true → less b a = false
  between : ∀ {a b c}, P a → P b → P c → less a c = true → less a b = true ∨ less b c = true

namespace Orders

variable {compares : α → α → m Bool} {less : α → α → Bool} {P : α → Prop} {a b c : α}

/-- The comparison the other way round orders the items too. -/
theorem flip (h : Orders compares less P) :
    Orders (fun a b => compares b a) (fun a b => less b a) P where
  answers ha hb := h.answers hb ha
  asymm ha hb := h.asymm hb ha
  between ha hb hc hac := (h.between hc hb ha hac).symm

theorem irrefl (h : Orders compares less P) (ha : P a) : less a a = false := by
  cases haa : less a a with
  | true => exact haa.symm.trans (h.asymm ha ha haa)
  | false => rfl

theorem trans (h : Orders compares less P) (ha : P a) (hb : P b) (hc : P c)
    (hab : less a b = true) (hbc : less b c = true) : less a c = true := by
  refine (h.between ha hc hb hab).resolve_right fun hcb => ?_
  rw [h.asymm hc hb hcb] at hbc
  cases hbc

/-- What lies below an item lies below everything that does not lie below this item. -/
theorem trans_le (h : Orders compares less P) (ha : P a) (hb : P b) (hc : P c)
    (hab : less a b = true) (hcb : less c b = false) : less a c = true :=
  (h.between ha hc hb hab).resolve_right (by simp [hcb])

/-- What lies above an item lies above everything that this item does not lie below. -/
theorem le_trans_lt (h : Orders compares less P) (ha : P a) (hb : P b) (hc : P c)
    (hba : less b a = false) (hbc : less b c = true) : less a c = true :=
  (h.between hb ha hc hbc).resolve_left (by simp [hba])

theorem le_trans (h : Orders compares less P) (ha : P a) (hb : P b) (hc : P c)
    (hba : less b a = false) (hcb : less c b = false) : less c a = false := by
  rw [← Bool.not_eq_true]
  intro hca
  rcases h.between hc hb ha hca with hlt | hlt
  · simp [hlt] at hcb
  · simp [hlt] at hba

/-- Items are put in order by what they are compared by. -/
theorem of_compare {β : Type} [Ord β] [Std.TransOrd β] (height : α → β)
    (hanswers : ∀ {a b}, P a → P b → compares a b = pure (less a b))
    (hless : ∀ {a b}, P a → P b → less a b = (compare (height a) (height b) == .lt)) :
    Orders compares less P where
  answers := hanswers
  asymm ha hb hab := by
    rw [hless ha hb, beq_iff_eq] at hab
    rw [hless hb ha, Std.OrientedOrd.eq_swap, hab]
    rfl
  between ha hb hc hac := by
    simp only [hless ha hb, hless hb hc, hless ha hc, beq_iff_eq] at hac ⊢
    by_contra hnone
    simp only [not_or, ← Ordering.isGE_iff_ne_lt] at hnone
    have hge := Std.TransCmp.isGE_trans hnone.1 hnone.2
    rw [hac] at hge
    cases hge

end Orders

/-! ## Order kept -/

/-- The items lie at one height. -/
def alike (less : α → α → Bool) (a b : α) : Bool :=
  !less a b && !less b a

/-- The second row has the items of the first, and at each height they stand in its order. -/
structure Keeps (less : α → α → Bool) (P : α → Prop) (xs ys : List α) : Prop where
  perm : ys.Perm xs
  alike : ∀ a, P a → ys.filter (alike less a) = xs.filter (alike less a)

namespace Keeps

variable {less : α → α → Bool} {P : α → Prop} {xs ys zs xs' ys' : List α}

theorem refl (xs : List α) : Keeps less P xs xs :=
  ⟨.refl xs, fun _ _ => rfl⟩

theorem trans (h : Keeps less P xs ys) (h' : Keeps less P ys zs) : Keeps less P xs zs :=
  ⟨h'.perm.trans h.perm, fun a ha => (h'.alike a ha).trans (h.alike a ha)⟩

theorem append (h : Keeps less P xs ys) (h' : Keeps less P xs' ys') :
    Keeps less P (xs ++ xs') (ys ++ ys') :=
  ⟨h.perm.append h'.perm, fun a ha => by
    rw [List.filter_append, List.filter_append, h.alike a ha, h'.alike a ha]⟩

theorem appendLeft (front : List α) (h : Keeps less P xs ys) :
    Keeps less P (front ++ xs) (front ++ ys) :=
  (refl front).append h

theorem appendRight (h : Keeps less P xs ys) (back : List α) :
    Keeps less P (xs ++ back) (ys ++ back) :=
  h.append (refl back)

/-- Two stretches change places when each item of the one lies below each of the other. -/
theorem exchange {compares : α → α → m Bool} (h : Orders compares less P)
    (hxs : ∀ x ∈ xs, P x) (hys : ∀ y ∈ ys, P y)
    (hbelow : ∀ y ∈ ys, ∀ x ∈ xs, less y x = true) : Keeps less P (xs ++ ys) (ys ++ xs) := by
  refine ⟨List.perm_append_comm, fun a ha => ?_⟩
  rw [List.filter_append, List.filter_append]
  -- At one height there are items of one of the two stretches only.
  by_cases hnone : xs.filter (Sorting.alike less a) = []
  · rw [hnone, List.append_nil, List.nil_append]
  · obtain ⟨x, hx⟩ := List.exists_mem_of_ne_nil _ hnone
    obtain ⟨hx, hax⟩ := List.mem_filter.mp hx
    have hnone' : ys.filter (Sorting.alike less a) = [] := by
      refine List.filter_eq_nil_iff.mpr fun y hy hay => ?_
      rw [Sorting.alike, Bool.and_eq_true, Bool.not_eq_true', Bool.not_eq_true'] at hax hay
      rcases h.between (hys y hy) ha (hxs x hx) (hbelow y hy x hx) with hlt | hlt
      · simp [hay.2] at hlt
      · simp [hax.1] at hlt
    rw [hnone', List.append_nil, List.nil_append]

/-- Both rows turned around, by the comparison the other way round. -/
theorem reverse (h : Keeps less P xs ys) :
    Keeps (fun a b => less b a) P xs.reverse ys.reverse := by
  refine ⟨(List.reverse_perm ys).trans (h.perm.trans (List.reverse_perm xs).symm), fun a ha => ?_⟩
  have halike : Sorting.alike (fun a b => less b a) a = Sorting.alike less a := by
    funext b
    rw [Sorting.alike, Sorting.alike, Bool.and_comm]
  rw [halike, List.filter_reverse, List.filter_reverse, h.alike a ha]

theorem forall_mem (h : Keeps less P xs ys) (hxs : ∀ x ∈ xs, P x) : ∀ y ∈ ys, P y :=
  fun y hy => hxs y (h.perm.subset hy)

end Keeps

/-! ## Sorted rows -/

/-- No item of a row lies below one in front of it. -/
def Rises (less : α → α → Bool) (xs : List α) : Prop :=
  xs.Pairwise fun a b => less b a = false

/-- The second row is the first one, sorted: its items are in order, and those at one height
    stand as in the first row. -/
structure Sorts (less : α → α → Bool) (P : α → Prop) (xs ys : List α) : Prop where
  keeps : Keeps less P xs ys
  rises : Rises less ys

theorem Sorts.forall_mem {less : α → α → Bool} {P : α → Prop} {xs ys : List α}
    (h : Sorts less P xs ys) (hxs : ∀ x ∈ xs, P x) : ∀ y ∈ ys, P y :=
  h.keeps.forall_mem hxs

/-- A row that keeps the order of another at each height may be sorted in its place. -/
theorem Keeps.sorts {less : α → α → Bool} {P : α → Prop} {xs ys zs : List α}
    (h : Keeps less P xs ys) (hsorts : Sorts less P ys zs) : Sorts less P xs zs :=
  ⟨h.trans hsorts.keeps, hsorts.rises⟩

theorem Rises.sorts {less : α → α → Bool} {P : α → Prop} {xs : List α} (h : Rises less xs) :
    Sorts less P xs xs :=
  ⟨.refl xs, h⟩

theorem Rises.reverse {less : α → α → Bool} {xs : List α} (h : Rises less xs) :
    Rises (fun a b => less b a) xs.reverse :=
  List.pairwise_reverse.mpr h

/-- A row that was sorted turned around, by the comparison the other way round. -/
theorem Sorts.reverse {less : α → α → Bool} {P : α → Prop} {xs ys : List α}
    (h : Sorts less P xs ys) : Sorts (fun a b => less b a) P xs.reverse ys.reverse :=
  ⟨h.keeps.reverse, h.rises.reverse⟩

/-- Sorted rows in a row are sorted if no item of the second lies below one of the first. -/
theorem rises_append {less : α → α → Bool} {xs ys : List α} :
    Rises less (xs ++ ys) ↔
      Rises less xs ∧ Rises less ys ∧ ∀ x ∈ xs, ∀ y ∈ ys, less y x = false :=
  List.pairwise_append

/-- Items have one sorted row. -/
theorem Sorts.unique {compares : α → α → m Bool} {less : α → α → Bool} {P : α → Prop}
    {xs ys zs : List α} (ho : Orders compares less P) (hxs : ∀ x ∈ xs, P x)
    (hys : Sorts less P xs ys) (hzs : Sorts less P xs zs) : ys = zs := by
  -- The least items in front lie at one height, so they are the first of their height.
  induction ys generalizing xs zs with
  | nil => exact (hzs.keeps.perm.trans hys.keeps.perm.symm).eq_nil.symm
  | cons y ys ih =>
    have hperm : zs.Perm (y :: ys) := hzs.keeps.perm.trans hys.keeps.perm.symm
    cases zs with
    | nil => cases hperm.nil_eq
    | cons z zs =>
      obtain ⟨hy, hyrises⟩ := List.pairwise_cons.mp hys.rises
      obtain ⟨hz, hzrises⟩ := List.pairwise_cons.mp hzs.rises
      have hPy := hys.forall_mem hxs y List.mem_cons_self
      have hPz := hzs.forall_mem hxs z List.mem_cons_self
      have hzy : less z y = false := by
        rcases List.mem_cons.mp (hperm.subset List.mem_cons_self) with rfl | hmem
        · exact ho.irrefl hPy
        · exact hy z hmem
      have hyz : less y z = false := by
        rcases List.mem_cons.mp (hperm.symm.subset List.mem_cons_self) with rfl | hmem
        · exact ho.irrefl hPy
        · exact hz y hmem
      have halike : alike less y y = true ∧ alike less y z = true := by
        simp [alike, ho.irrefl hPy, hzy, hyz]
      have hfront := (hys.keeps.alike y hPy).trans (hzs.keeps.alike y hPy).symm
      rw [List.filter_cons_of_pos halike.1, List.filter_cons_of_pos halike.2] at hfront
      obtain rfl : y = z := (List.cons.inj hfront).1
      have hPys : ∀ x ∈ ys, P x := fun x hx => hys.forall_mem hxs x (List.mem_cons_of_mem y hx)
      have hkeeps : Keeps less P ys zs := by
        refine ⟨hperm.cons_inv, fun a ha => ?_⟩
        have hrest := (hzs.keeps.alike a ha).trans (hys.keeps.alike a ha).symm
        rw [List.filter_cons, List.filter_cons] at hrest
        split at hrest
        · exact (List.cons.inj hrest).2
        · exact hrest
      rw [ih hPys (Rises.sorts hyrises) ⟨hkeeps, hzrises⟩]

/-! ## One comparison after another -/

/-- The first comparison, and where it does not tell two items apart, the second. -/
def andThen (less less' : α → α → Bool) (a b : α) : Bool :=
  less a b || !less b a && less' a b

section AndThen

variable {less less' less'' : α → α → Bool} {P : α → Prop} {xs ys zs : List α}

theorem andThen_assoc :
    andThen (andThen less less') less'' = andThen less (andThen less' less'') := by
  funext a b
  simp only [andThen]
  cases less a b <;> cases less b a <;> simp

theorem alike_andThen (a b : α) :
    alike (andThen less less') a b = (alike less a b && alike less' a b) := by
  simp only [alike, andThen]
  cases less a b <;> cases less b a <;> simp

theorem Orders.andThen {compares compares' compares'' : α → α → m Bool}
    (h : Orders compares less P) (h' : Orders compares' less' P)
    (hanswers : ∀ {a b}, P a → P b → compares'' a b = pure (Sorting.andThen less less' a b)) :
    Orders compares'' (Sorting.andThen less less') P where
  answers := hanswers
  asymm {a b} ha hb hab := by
    have hasymm := h.asymm ha hb
    have hasymm' := h'.asymm ha hb
    simp only [Sorting.andThen] at hab ⊢
    grind only
  between {a b c} ha hb hc hac := by
    have hbetween := h.between ha hb hc
    have hbetween' := h'.between ha hb hc
    -- An item that the first comparison tells apart from one end lies on the other side of it.
    have hbelow := h.between hb hc ha
    have habove := h.between hc ha hb
    simp only [Sorting.andThen] at hac ⊢
    grind only

theorem Keeps.andThen_left (h : Keeps less P xs ys) (less' : α → α → Bool) :
    Keeps (andThen less less') P xs ys := by
  refine ⟨h.perm, fun a ha => ?_⟩
  have hfilter : ∀ rows : List α, rows.filter (Sorting.alike (andThen less less') a) =
      (rows.filter (Sorting.alike less a)).filter (Sorting.alike less' a) := fun rows => by
    rw [List.filter_filter]
    exact List.filter_congr fun b _ => by rw [alike_andThen, Bool.and_comm]
  rw [hfilter, hfilter, h.alike a ha]

theorem Keeps.andThen_right (h : Keeps less' P xs ys) (less : α → α → Bool) :
    Keeps (andThen less less') P xs ys := by
  refine ⟨h.perm, fun a ha => ?_⟩
  have hfilter : ∀ rows : List α, rows.filter (Sorting.alike (andThen less less') a) =
      (rows.filter (Sorting.alike less' a)).filter (Sorting.alike less a) := fun rows => by
    rw [List.filter_filter]
    exact List.filter_congr fun b _ => alike_andThen a b
  rw [hfilter, hfilter, h.alike a ha]

/-- Items that were sorted by one comparison and then by another are sorted by the second, and
    where it does not tell by the first. -/
theorem Sorts.andThen {compares : α → α → m Bool} (ho : Orders compares less P)
    (hxs : ∀ x ∈ xs, P x) (hys : Sorts less' P xs ys) (hzs : Sorts less P ys zs) :
    Sorts (andThen less less') P xs zs := by
  refine ⟨(hys.keeps.andThen_right less).trans (hzs.keeps.andThen_left less'), ?_⟩
  refine List.pairwise_iff_forall_sublist.mpr fun {a b} hab => ?_
  have hrises : less b a = false := List.pairwise_iff_forall_sublist.mp hzs.rises hab
  have hPa : P a := hzs.forall_mem (hys.forall_mem hxs) a (hab.subset List.mem_cons_self)
  by_cases hless : less a b = true
  · simp [Sorting.andThen, hrises, hless]
  · -- Items at one height still stand as the first sort left them.
    have halike : [a, b].filter (alike less a) = [a, b] := by
      simp [alike, ho.irrefl hPa, hrises, hless]
    have hbefore : [a, b].Sublist ys := by
      have hsub := hab.filter (alike less a)
      rw [halike, hzs.keeps.alike a hPa] at hsub
      exact hsub.trans List.filter_sublist
    have hrises' : less' b a = false := List.pairwise_iff_forall_sublist.mp hys.rises hbefore
    simp [Sorting.andThen, hrises, hrises']

end AndThen

end DocQuery.Sorting
