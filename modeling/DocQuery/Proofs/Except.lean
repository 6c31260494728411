-- SUMMARY: Computations that may fail: what their results are made of, and when two agree.
import Mathlib.Data.List.Forall2

/-!
# Computations that may fail

A computation succeeds when its steps do, and its result is made of theirs. Two of them
agree when they fail alike and succeed alike, with related results. They succeed alike when
they agree but for the errors.
-/

namespace DocQuery

/-! ## Results of steps -/

section Steps

variable {ε : Type u} {α β : Type}

theorem exists_of_map_eq_ok {x : Except ε α} {f : α → β} {b : β} (h : x.map f = .ok b) :
    ∃ a, x = .ok a ∧ f a = b := by
  cases x with
  | error e => cases h
  | ok a =>
    cases h
    exact ⟨a, rfl, rfl⟩

theorem exists_map_eq_ok_iff {x : Except ε α} {f : α → β} :
    (∃ b, x.map f = .ok b) ↔ ∃ a, x = .ok a := by
  constructor
  · rintro ⟨b, hb⟩
    obtain ⟨a, ha, _⟩ := exists_of_map_eq_ok hb
    exact ⟨a, ha⟩
  · rintro ⟨a, rfl⟩
    exact ⟨f a, rfl⟩

theorem exists_of_bind_eq_ok {x : Except ε α} {f : α → Except ε β} {b : β}
    (h : x >>= f = .ok b) : ∃ a, x = .ok a ∧ f a = .ok b := by
  cases x with
  | error e => cases h
  | ok a => exact ⟨a, rfl, h⟩

/-- A walk over a list succeeds exactly when it does at each item. -/
theorem mapM_eq_ok_iff {f : α → Except ε β} {xs : List α} {ys : List β} :
    xs.mapM f = .ok ys ↔ List.Forall₂ (fun x y => f x = .ok y) xs ys := by
  constructor
  · intro h
    induction xs generalizing ys with
    | nil =>
      cases h
      exact .nil
    | cons x xs ih =>
      rw [List.mapM_cons] at h
      obtain ⟨y, hy, h⟩ := exists_of_bind_eq_ok h
      obtain ⟨rest, hrest, h⟩ := exists_of_bind_eq_ok h
      cases h
      exact .cons hy (ih hrest)
  · intro h
    induction h with
    | nil => rfl
    | cons hhead _ ih =>
      rw [List.mapM_cons, hhead, ih]
      rfl

theorem exists_mapM_eq_ok {f : α → Except ε β} {xs : List α}
    (h : ∀ x ∈ xs, ∃ y, f x = .ok y) : ∃ ys, xs.mapM f = .ok ys := by
  induction xs with
  | nil => exact ⟨[], rfl⟩
  | cons x xs ih =>
    obtain ⟨y, hy⟩ := h x List.mem_cons_self
    obtain ⟨ys, hys⟩ := ih fun x' hx' => h x' (List.mem_cons_of_mem x hx')
    refine ⟨y :: ys, ?_⟩
    rw [List.mapM_cons, hy, hys]
    rfl

/-- A walk over a list succeeds when it does at each item. -/
theorem exists_mapM_eq_ok_iff {f : α → Except ε β} {xs : List α} :
    (∃ ys, xs.mapM f = .ok ys) ↔ ∀ x ∈ xs, ∃ y, f x = .ok y := by
  refine ⟨?_, exists_mapM_eq_ok⟩
  rintro ⟨ys, hys⟩
  induction xs generalizing ys with
  | nil => exact fun x hx => nomatch hx
  | cons x xs ih =>
    cases mapM_eq_ok_iff.mp hys with
    | cons hhead hrest =>
      exact List.forall_mem_cons.mpr ⟨⟨_, hhead⟩, ih _ (mapM_eq_ok_iff.mpr hrest)⟩

/-- A walk over a list whose steps fail in one way only fails in that way once a step does. -/
theorem mapM_eq_error {f : α → Except ε β} {e : ε} {xs : List α}
    (h : ∀ x ∈ xs, (∃ y, f x = .ok y) ∨ f x = .error e) (hfails : ∃ x ∈ xs, f x = .error e) :
    xs.mapM f = .error e := by
  induction xs with
  | nil => simp at hfails
  | cons x xs ih =>
    obtain ⟨hx, hxs⟩ := List.forall_mem_cons.mp h
    rw [List.mapM_cons]
    rcases hx with ⟨y, hy⟩ | hx
    · have hrest := ih hxs ((List.exists_mem_cons_iff ..).mp hfails |>.resolve_left (by simp [hy]))
      rw [hy, hrest]
      rfl
    · rw [hx]
      rfl

theorem mapM_congr {m : Type → Type} [Monad m] [LawfulMonad m] {f g : α → m β} {xs : List α}
    (h : ∀ x ∈ xs, f x = g x) : xs.mapM f = xs.mapM g := by
  induction xs with
  | nil => rfl
  | cons x xs ih =>
    rw [List.mapM_cons, List.mapM_cons, h x List.mem_cons_self,
      ih fun y hy => h y (List.mem_cons_of_mem x hy)]

/-- Walks over lists side by side have one outcome when their steps do. -/
theorem mapM_eq_of_forall₂ {γ : Type} {f : α → Except ε γ} {g : β → Except ε γ} {xs : List α}
    {ys : List β} (h : List.Forall₂ (fun x y => f x = g y) xs ys) : xs.mapM f = ys.mapM g := by
  induction h with
  | nil => rfl
  | cons hhead _ ih => rw [List.mapM_cons, List.mapM_cons, hhead, ih]

theorem mapM_eq_some_iff {f : α → Option β} {xs : List α} {ys : List β} :
    xs.mapM f = some ys ↔ List.Forall₂ (fun x y => f x = some y) xs ys := by
  constructor
  · intro h
    induction xs generalizing ys with
    | nil =>
      cases h
      exact .nil
    | cons x xs ih =>
      rw [List.mapM_cons] at h
      obtain ⟨y, hy, h⟩ := Option.bind_eq_some_iff.mp h
      obtain ⟨rest, hrest, h⟩ := Option.bind_eq_some_iff.mp h
      cases h
      exact .cons hy (ih hrest)
  · intro h
    induction h with
    | nil => rfl
    | cons hhead _ ih =>
      rw [List.mapM_cons, hhead, ih]
      rfl

/-- Each item of a list that is walked over has its result among the results. -/
theorem exists_mem_of_mapM_eq_some {f : α → Option β} {xs : List α} {ys : List β}
    (h : xs.mapM f = some ys) : ∀ x ∈ xs, ∃ y ∈ ys, f x = some y := by
  induction xs generalizing ys with
  | nil =>
    intro x hx
    cases hx
  | cons x xs ih =>
    intro x' hx'
    rw [List.mapM_cons] at h
    obtain ⟨y, hy, h⟩ := Option.bind_eq_some_iff.mp h
    obtain ⟨rest, hrest, h⟩ := Option.bind_eq_some_iff.mp h
    cases h
    rcases List.mem_cons.mp hx' with rfl | hx'
    · exact ⟨y, List.mem_cons_self, hy⟩
    · obtain ⟨y', hy', hfx⟩ := ih hrest x' hx'
      exact ⟨y', List.mem_cons_of_mem y hy', hfx⟩

end Steps

/-! ## Lists side by side -/

section Lists

variable {α β : Type} {R : α → β → Prop} {P : α → Prop} {Q : β → Prop}

theorem exists_forall₂ {xs : List α} (h : ∀ x ∈ xs, ∃ y, R x y) :
    ∃ ys, List.Forall₂ R xs ys := by
  induction xs with
  | nil => exact ⟨[], .nil⟩
  | cons x xs ih =>
    obtain ⟨hhead, hrest⟩ := List.forall_mem_cons.mp h
    obtain ⟨y, hy⟩ := hhead
    obtain ⟨ys, hys⟩ := ih hrest
    exact ⟨y :: ys, .cons hy hys⟩

theorem exists_mem_iff_of_forall₂ {xs : List α} {ys : List β} (h : List.Forall₂ R xs ys)
    (hiff : ∀ x y, R x y → (P x ↔ Q y)) : (∃ x ∈ xs, P x) ↔ ∃ y ∈ ys, Q y := by
  induction h with
  | nil => simp
  | cons hhead _ ih => rw [List.exists_mem_cons_iff, List.exists_mem_cons_iff, ih, hiff _ _ hhead]

theorem forall_mem_iff_of_forall₂ {xs : List α} {ys : List β} (h : List.Forall₂ R xs ys)
    (hiff : ∀ x y, R x y → (P x ↔ Q y)) : (∀ x ∈ xs, P x) ↔ ∀ y ∈ ys, Q y := by
  induction h with
  | nil => simp
  | cons hhead _ ih => rw [List.forall_mem_cons, List.forall_mem_cons, ih, hiff _ _ hhead]

theorem forall_mem_of_forall₂ {xs : List α} {ys : List β} (h : List.Forall₂ R xs ys)
    (hright : ∀ x y, R x y → Q y) : ∀ y ∈ ys, Q y :=
  (forall_mem_iff_of_forall₂ h fun x y hxy => iff_of_true trivial (hright x y hxy)).mp
    fun _ _ => trivial

theorem eq_nil_iff_of_forall₂ {xs : List α} {ys : List β} (h : List.Forall₂ R xs ys) :
    xs = [] ↔ ys = [] := by
  cases h <;> simp

theorem map_eq_map_of_forall₂ {γ : Type} {f : α → γ} {g : β → γ} {xs : List α} {ys : List β}
    (h : List.Forall₂ R xs ys) (hsame : ∀ x y, R x y → f x = g y) : xs.map f = ys.map g := by
  induction h with
  | nil => rfl
  | cons hhead _ ih => rw [List.map_cons, List.map_cons, ih, hsame _ _ hhead]

theorem filterMap_eq_filterMap_of_forall₂ {γ : Type} {f : α → Option γ} {g : β → Option γ}
    {xs : List α} {ys : List β} (h : List.Forall₂ R xs ys) (hsame : ∀ x y, R x y → f x = g y) :
    xs.filterMap f = ys.filterMap g := by
  induction h with
  | nil => rfl
  | cons hhead _ ih => rw [List.filterMap_cons, List.filterMap_cons, ih, hsame _ _ hhead]

theorem any_eq_any_of_forall₂ {p : α → Bool} {q : β → Bool} {xs : List α} {ys : List β}
    (h : List.Forall₂ R xs ys) (hsame : ∀ x y, R x y → p x = q y) : xs.any p = ys.any q := by
  induction h with
  | nil => rfl
  | cons hhead _ ih => rw [List.any_cons, List.any_cons, ih, hsame _ _ hhead]

theorem none_or_some_of_rel {x? : Option α} {y? : Option β} (h : Option.Rel R x? y?) :
    (x? = none ∧ y? = none) ∨ ∃ x y, x? = some x ∧ y? = some y ∧ R x y := by
  cases h with
  | none => exact .inl ⟨rfl, rfl⟩
  | some h => exact .inr ⟨_, _, rfl, rfl, h⟩

theorem exists_of_rel_some {x? : Option α} {y? : Option β} (h : Option.Rel R x? y?) {x : α}
    (hx : x? = some x) : ∃ y, y? = some y ∧ R x y := by
  subst hx
  cases h with
  | some h => exact ⟨_, rfl, h⟩

theorem find?_of_forall₂ {p : α → Bool} {q : β → Bool} {xs : List α} {ys : List β}
    (h : List.Forall₂ R xs ys) (hsame : ∀ x y, R x y → p x = q y) :
    Option.Rel R (xs.find? p) (ys.find? q) := by
  induction h with
  | nil => exact .none
  | @cons x y xs ys hhead _ ih =>
    rw [List.find?_cons, List.find?_cons, hsame x y hhead]
    cases q y with
    | true => exact .some hhead
    | false => exact ih

theorem exists_getElem?_of_forall₂ {xs : List α} {ys : List β} (h : List.Forall₂ R xs ys)
    {i : Nat} {x : α} (hx : xs[i]? = some x) : ∃ y, ys[i]? = some y ∧ R x y := by
  induction h generalizing i with
  | nil => cases hx
  | cons hhead _ ih =>
    cases i with
    | zero =>
      cases hx
      exact ⟨_, rfl, hhead⟩
    | succ i => exact ih hx

theorem exists_mem_of_forall₂ {xs : List α} {ys : List β} (h : List.Forall₂ R xs ys) {x : α}
    (hx : x ∈ xs) : ∃ y ∈ ys, R x y := by
  obtain ⟨i, hi⟩ := List.mem_iff_getElem?.mp hx
  obtain ⟨y, hy, hxy⟩ := exists_getElem?_of_forall₂ h hi
  exact ⟨y, List.mem_of_getElem? hy, hxy⟩

/-- What every item comes to holds of all results. -/
theorem forall_mem_of_mapM_eq_ok {ε : Type u} {f : α → Except ε β} {xs : List α} {ys : List β}
    (h : xs.mapM f = .ok ys) (hitem : ∀ x ∈ xs, ∀ y, f x = .ok y → Q y) : ∀ y ∈ ys, Q y := by
  intro y hy
  obtain ⟨x, hx, hxy⟩ := exists_mem_of_forall₂ (mapM_eq_ok_iff.mp h).flip hy
  exact hitem x hx y hxy

end Lists

/-! ## Outcomes that agree -/

/-- Both fail with the same error, or both succeed with related results. -/
inductive Agree {ε : Type u} {α : Type v} {β : Type w} (R : α → β → Prop) :
    Except ε α → Except ε β → Prop
  | ok {a : α} {b : β} (h : R a b) : Agree R (.ok a) (.ok b)
  | error (e : ε) : Agree R (.error e) (.error e)

namespace Agree

variable {ε : Type u} {α β γ δ : Type}
variable {R : α → β → Prop} {S : γ → δ → Prop}

theorem map {x : Except ε α} {y : Except ε β} {f : α → γ} {g : β → δ} (h : Agree R x y)
    (hfg : ∀ a b, R a b → S (f a) (g b)) : Agree S (x.map f) (y.map g) := by
  cases h with
  | ok h => exact .ok (hfg _ _ h)
  | error e => exact .error e

theorem bind {x : Except ε α} {y : Except ε β} {f : α → Except ε γ} {g : β → Except ε δ}
    (h : Agree R x y) (hfg : ∀ a b, R a b → Agree S (f a) (g b)) :
    Agree S (x >>= f) (y >>= g) := by
  cases h with
  | ok h => exact hfg _ _ h
  | error e => exact .error e

theorem imp {S : α → β → Prop} {x : Except ε α} {y : Except ε β} (h : Agree R x y)
    (hRS : ∀ a b, R a b → S a b) : Agree S x y := by
  cases h with
  | ok h => exact .ok (hRS _ _ h)
  | error e => exact .error e

/-- An outcome agrees with itself when its result is related to itself. -/
theorem refl {R : α → α → Prop} {x : Except ε α} (h : ∀ a, x = .ok a → R a a) :
    Agree R x x := by
  cases x with
  | ok a => exact .ok (h a rfl)
  | error e => exact .error e

theorem mapM {ι : Type} {f : ι → Except ε α} {g : ι → Except ε β} {xs : List ι}
    (h : ∀ x ∈ xs, Agree R (f x) (g x)) : Agree (List.Forall₂ R) (xs.mapM f) (xs.mapM g) := by
  induction xs with
  | nil => exact .ok .nil
  | cons x xs ih =>
    rw [List.mapM_cons, List.mapM_cons]
    refine (h x List.mem_cons_self).bind fun a b hab => ?_
    refine (ih fun y hy => h y (List.mem_cons_of_mem x hy)).bind fun as bs hrest => ?_
    exact .ok (.cons hab hrest)

end Agree

/-! ## Outcomes that agree but for the errors -/

/-- Both fail, perhaps with different errors, or both succeed with related results. -/
inductive SucceedAlike {ε : Type u} {α : Type v} {β : Type w} (R : α → β → Prop) :
    Except ε α → Except ε β → Prop
  | ok {a : α} {b : β} (h : R a b) : SucceedAlike R (.ok a) (.ok b)
  | error (e e' : ε) : SucceedAlike R (.error e) (.error e')

namespace SucceedAlike

variable {ε : Type u} {α β γ δ : Type}
variable {R : α → β → Prop} {S : γ → δ → Prop}

theorem map {x : Except ε α} {y : Except ε β} {f : α → γ} {g : β → δ} (h : SucceedAlike R x y)
    (hfg : ∀ a b, R a b → S (f a) (g b)) : SucceedAlike S (x.map f) (y.map g) := by
  cases h with
  | ok h => exact .ok (hfg _ _ h)
  | error e e' => exact .error e e'

theorem bind {x : Except ε α} {y : Except ε β} {f : α → Except ε γ} {g : β → Except ε δ}
    (h : SucceedAlike R x y) (hfg : ∀ a b, R a b → SucceedAlike S (f a) (g b)) :
    SucceedAlike S (x >>= f) (y >>= g) := by
  cases h with
  | ok h => exact hfg _ _ h
  | error e e' => exact .error e e'

theorem imp {S : α → β → Prop} {x : Except ε α} {y : Except ε β} (h : SucceedAlike R x y)
    (hRS : ∀ a b, R a b → S a b) : SucceedAlike S x y := by
  cases h with
  | ok h => exact .ok (hRS _ _ h)
  | error e e' => exact .error e e'

theorem refl {R : α → α → Prop} (h : ∀ a, R a a) (x : Except ε α) : SucceedAlike R x x := by
  cases x with
  | ok a => exact .ok (h a)
  | error e => exact .error e e

theorem map_same {x y : Except ε α} (h : SucceedAlike Eq x y) (f : α → γ) :
    SucceedAlike Eq (x.map f) (y.map f) :=
  h.map fun _ _ => congrArg f

theorem bind_same {x y : Except ε α} {f : α → Except ε γ} {g : α → Except ε δ}
    (h : SucceedAlike Eq x y) (hfg : ∀ a, SucceedAlike S (f a) (g a)) :
    SucceedAlike S (x >>= f) (y >>= g) :=
  h.bind fun a _ hab => hab ▸ hfg a

/-- Walks over lists side by side succeed alike when their steps do. -/
theorem mapM {ι κ : Type} {f : ι → Except ε α} {g : κ → Except ε β} {xs : List ι} {ys : List κ}
    (h : List.Forall₂ (fun x y => SucceedAlike R (f x) (g y)) xs ys) :
    SucceedAlike (List.Forall₂ R) (xs.mapM f) (ys.mapM g) := by
  induction h with
  | nil => exact .ok .nil
  | cons hhead _ ih =>
    rw [List.mapM_cons, List.mapM_cons]
    exact hhead.bind fun _ _ hab => ih.bind fun _ _ hrest => .ok (.cons hab hrest)

end SucceedAlike

end DocQuery
