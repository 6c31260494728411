-- SUMMARY: Sort keys without floating point numbers: one row of whole numbers each, in the order of the rows.
import DocQuery.Value.Less
import DocQuery.Value.SortKey
import Mathlib.Tactic.Common

/-!
# The order of sort keys

A sort key without floating point numbers can be written as one row of whole numbers: its
rank, then its contents, with a number below all others behind every text and every listing.
No row is the front of another one, so the order of two keys is the order of their rows. That
makes the order of keys total, whatever kinds of values are nested in each other.

A key as data is compared item by item. This never meets a pair that has no order, since what
stands behind equal ranks is of one kind, and it finds the same order.
-/

namespace DocQuery

open Text (CodePoint)

/-! ## Texts -/

namespace Text.CodePoint

/-- No character has the number of a surrogate. -/
theorem number_injective : Function.Injective number := by
  have hapart : ∀ (c : Char) (n : Fin 0x800), c.toNat ≠ 0xD800 + n := by
    intro c n h
    rcases c.valid with hlow | ⟨hhigh, -⟩
    · have : c.toNat < 0xD800 := hlow
      omega
    · have : 0xDFFF < c.toNat := hhigh
      omega
  intro p q h
  cases p with
  | char c =>
    cases q with
    | char d => rw [Char.toNat_inj.mp h]
    | surrogate n => exact absurd h (hapart c n)
  | surrogate n =>
    cases q with
    | char d => exact absurd h.symm (hapart d n)
    | surrogate m =>
      obtain rfl : n = m := Fin.ext (Nat.add_left_cancel h)
      rfl

theorem ofText_injective : Function.Injective ofText := by
  intro s t h
  exact String.toList_inj.mp ((List.map_inj_right fun _ _ => CodePoint.char.inj).mp h)

/-- A broken text is no text. -/
theorem ofText_ne_points (s : String) (t : BrokenText) : ofText s ≠ t.points := by
  intro h
  have hbroken := t.broken
  rw [← h, ofText, List.any_map] at hbroken
  simp [isSurrogate] at hbroken

end Text.CodePoint

theorem Text.BrokenText.points_injective : Function.Injective Text.BrokenText.points := by
  rintro ⟨ps, _⟩ ⟨qs, _⟩ rfl
  rfl

namespace SortKey

theorem compare_lists_eq_lt_iff {ms ns : List Nat} : compare ms ns = .lt ↔ ms < ns := by
  induction ms generalizing ns with
  | nil => cases ns <;> simp
  | cons m ms ih =>
    cases ns with
    | nil => simp
    | cons n ns =>
      simp only [List.compare_cons_cons, Ordering.then_eq_lt, Nat.compare_eq_lt,
        Nat.compare_eq_eq, ih, List.cons_lt_cons_iff]

theorem comparePoints_eq_lt_iff {ps qs : List CodePoint} :
    comparePoints ps qs = .lt ↔ ps.map (·.number) < qs.map (·.number) :=
  compare_lists_eq_lt_iff

theorem comparePoints_eq_eq_iff {ps qs : List CodePoint} : comparePoints ps qs = .eq ↔ ps = qs := by
  rw [comparePoints, Std.compare_eq_iff_eq]
  exact List.map_inj_right fun _ _ h => CodePoint.number_injective h

theorem comparePoints_swap (ps qs : List CodePoint) :
    comparePoints ps qs = (comparePoints qs ps).swap :=
  Std.OrientedOrd.eq_swap

theorem lt_iff_points {s t : String} :
    s < t ↔ (CodePoint.ofText s).map (·.number) < (CodePoint.ofText t).map (·.number) := by
  have hlists : ∀ cs ds : List Char, cs < ds ↔ cs.map (·.toNat) < ds.map (·.toNat) := by
    intro cs
    induction cs with
    | nil => intro ds; cases ds <;> simp
    | cons c cs ih =>
      intro ds
      cases ds with
      | nil => simp
      | cons d ds =>
        rw [List.map_cons, List.map_cons, List.cons_lt_cons_iff, List.cons_lt_cons_iff, ih,
          Char.toNat_inj]
        rfl
  rw [String.lt_iff, hlists, CodePoint.ofText, CodePoint.ofText, List.map_map, List.map_map]
  rfl

/-- Texts are ordered by their code points. -/
theorem compare_texts (s t : String) :
    compare s t = comparePoints (CodePoint.ofText s) (CodePoint.ofText t) := by
  have hlt : ∀ {s t : String}, compare s t = .lt →
      comparePoints (CodePoint.ofText s) (CodePoint.ofText t) = .lt := by
    intro s t h
    exact comparePoints_eq_lt_iff.mpr (lt_iff_points.mp (compareOfLessAndEq_eq_lt.mp h))
  cases h : compare s t with
  | lt => exact (hlt h).symm
  | eq =>
    rw [Std.compare_eq_iff_eq.mp h]
    exact (comparePoints_eq_eq_iff.mpr rfl).symm
  | gt =>
    rw [comparePoints_swap, hlt (Std.OrientedCmp.gt_iff_lt.mp h)]
    rfl

/-! ## Rows of numbers -/

/-- The numbers of the code points of a text, and its end. -/
def pointsRow (ps : List CodePoint) : List Int :=
  ps.map (fun p => (p.number : Int)) ++ [-1]

mutual

/-- A key as a row of whole numbers. -/
def row : SortKey → List Int
  | null => [0]
  | truth b => [1, b.toNat]
  | number (.int n) => [2, n]
  | number (.float _) => [2]
  | text s _ => 3 :: pointsRow (CodePoint.ofText s)
  | brokenText t => 3 :: pointsRow t.points
  | time s => 4 :: pointsRow (CodePoint.ofText s)
  | pointer p =>
    5 :: (pointsRow (CodePoint.ofText p.className) ++ pointsRow (CodePoint.ofText p.objectId))
  | mapping xs => 6 :: rows xs
  | sequence xs => 7 :: rows xs
  | other s => 8 :: pointsRow (CodePoint.ofText s)

/-- Keys as one row of whole numbers, and their end. -/
def rows : List SortKey → List Int
  | [] => [-1]
  | x :: xs => x.row ++ rows xs

end

@[simp]
theorem row_null : null.row = [0] := rfl

@[simp]
theorem row_truth (b : Bool) : (truth b).row = [1, (b.toNat : Int)] := rfl

@[simp]
theorem row_int (n : Int) : (number (.int n)).row = [2, n] := rfl

@[simp]
theorem row_time (s : String) : (time s).row = 4 :: pointsRow (CodePoint.ofText s) := rfl

@[simp]
theorem row_pointer (p : Pointer) : (pointer p).row = 5 ::
    (pointsRow (CodePoint.ofText p.className) ++ pointsRow (CodePoint.ofText p.objectId)) := rfl

@[simp]
theorem row_mapping (xs : List SortKey) : (mapping xs).row = 6 :: rows xs := rfl

@[simp]
theorem row_sequence (xs : List SortKey) : (sequence xs).row = 7 :: rows xs := rfl

@[simp]
theorem row_other (s : String) : (other s).row = 8 :: pointsRow (CodePoint.ofText s) := rfl

theorem exists_row (k : SortKey) : ∃ rest, k.row = (k.rank : Int) :: rest := by
  cases k with
  | number n => cases n <;> exact ⟨_, rfl⟩
  | _ => exact ⟨_, rfl⟩

theorem compare_natCast (m n : Nat) : compare (m : Int) n = compare m n := by
  simp only [compare, compareOfLessAndEq, Int.ofNat_lt, Int.ofNat_inj]

/-- The end of a text lies below everything that could stand in its place. -/
theorem compare_pointsRow (ps qs : List CodePoint) (r s : List Int) :
    compare (pointsRow ps ++ r) (pointsRow qs ++ s) = (comparePoints ps qs).then (compare r s) := by
  have hend : ∀ n : Nat, compare (-1 : Int) n = .lt := fun n => by
    rw [Std.compare_eq_lt]
    omega
  have hend' : ∀ n : Nat, compare (n : Int) (-1) = .gt := fun n => by
    rw [Std.compare_eq_gt]
    omega
  induction ps generalizing qs with
  | nil => cases qs <;> simp [pointsRow, comparePoints, hend]
  | cons p ps ih =>
    cases qs with
    | nil => simp [pointsRow, comparePoints, hend']
    | cons q qs =>
      simp only [pointsRow, comparePoints, List.map_cons, List.cons_append,
        List.compare_cons_cons, compare_natCast, Ordering.then_assoc] at ih ⊢
      rw [ih]

end SortKey

/-! ## Comparisons of data -/

namespace Value

/-- The values are compared as data with a given outcome. -/
structure ComparesAs (v w : Value) (o : Ordering) : Prop where
  equal : (v == w) = (o == .eq)
  less : v.less? w = some (o == .lt)

/-- The listings are compared as data with a given outcome. -/
structure ItemsCompareAs (vs ws : List Value) (o : Ordering) : Prop where
  equal : equalItems vs ws = (o == .eq)
  less : lessItems? vs ws = some (o == .lt)

variable {v w : Value} {vs ws : List Value} {o o' : Ordering}

theorem ItemsCompareAs.nil : ItemsCompareAs [] [] .eq :=
  ⟨rfl, rfl⟩

theorem ItemsCompareAs.cons (h : ComparesAs v w o) (hrest : ItemsCompareAs vs ws o') :
    ItemsCompareAs (v :: vs) (w :: ws) (o.then o') where
  equal := by
    have hequal : v.equal w = (o == .eq) := h.equal
    rw [equalItems, hequal, hrest.equal]
    cases o <;> rfl
  less := by
    rw [lessItems?, h.equal, hrest.less, h.less]
    cases o <;> rfl

/-- Where the first items differ, the others do not matter. -/
theorem ItemsCompareAs.of_ne (h : ComparesAs v w o) (hne : o ≠ .eq) (vs ws : List Value) :
    ItemsCompareAs (v :: vs) (w :: ws) o where
  equal := by
    have hequal : v.equal w = (o == .eq) := h.equal
    rw [equalItems, hequal, beq_false_of_ne hne, Bool.false_and]
  less := by
    rw [lessItems?, h.equal, h.less, beq_false_of_ne hne, if_neg (by simp)]

theorem ItemsCompareAs.single (h : ComparesAs v w o) : ItemsCompareAs [v] [w] o := by
  simpa using ItemsCompareAs.cons h .nil

theorem ItemsCompareAs.tuple (h : ItemsCompareAs vs ws o) : ComparesAs (.tuple vs) (.tuple ws) o :=
  ⟨h.equal, h.less⟩

theorem comparesAs_of_int {m n : Int} (hv : v.number? = some (.int m))
    (hw : w.number? = some (.int n)) : ComparesAs v w (compare m n) := by
  have hequal : v.equal w = equalPlain v w ∧ v.less? w = lessPlain? v w := by
    cases v <;> cases hv <;> cases w <;> cases hw <;> exact ⟨rfl, rfl⟩
  refine ⟨hequal.1.trans ?_, hequal.2.trans ?_⟩
  · simp [equalPlain, hv, hw, Number.equal, Number.compare?]
  · simp [lessPlain?, hv, hw, Number.less, Number.compare?]

/-- Behind one number the others are compared. -/
theorem ComparesAs.ranked (n : Int) (h : ItemsCompareAs vs ws o) :
    ComparesAs (.tuple (.int n :: vs)) (.tuple (.int n :: ws)) o := by
  have hsame : ComparesAs (.int n) (.int n) (compare n n) := comparesAs_of_int rfl rfl
  simpa using (ItemsCompareAs.cons hsame h).tuple

theorem comparesAs_of_points {ps qs : List CodePoint} (hv : v.points? = some ps)
    (hw : w.points? = some qs) : ComparesAs v w (SortKey.comparePoints ps qs) := by
  have hplain : v.number? = none ∧ w.number? = none ∧ v.equal w = equalPlain v w ∧
      v.less? w = lessPlain? v w := by
    cases v <;> cases hv <;> cases w <;> cases hw <;> exact ⟨rfl, rfl, rfl, rfl⟩
  obtain ⟨hvnumber, hwnumber, hequal, hless⟩ := hplain
  refine ⟨hequal.trans ?_, hless.trans ?_⟩
  · have hiff : equalPlain v w = true ↔ ps = qs := by
      cases v <;> cases hv <;> cases w <;> cases hw <;>
        simp [equalPlain, number?, text?, CodePoint.ofText_injective.eq_iff,
          CodePoint.ofText_ne_points, (CodePoint.ofText_ne_points _ _).symm,
          Text.BrokenText.points_injective.eq_iff]
    rw [Bool.eq_iff_iff, hiff, beq_iff_eq, SortKey.comparePoints_eq_eq_iff]
  · simp only [lessPlain?, hv, hw, hvnumber, hwnumber, Option.some.injEq]
    rw [Bool.eq_iff_iff, decide_eq_true_eq, beq_iff_eq, SortKey.comparePoints_eq_lt_iff]

end Value

namespace SortKey

/-! ## Keys without floating point numbers -/

/-- The key holds a text with given code points, written as a given value. -/
inductive HoldsText : SortKey → List CodePoint → Value → Prop
  | text (s : String) : HoldsText (text s none) (CodePoint.ofText s) (.text s)
  | tagKey (k : TagKey) : HoldsText (text k.text (some k)) (CodePoint.ofText k.text) (.tagKey k)
  | brokenText (t : Text.BrokenText) : HoldsText (brokenText t) t.points (.brokenText t)

/-- There is no floating point number in the key. -/
inductive IsWhole : SortKey → Prop
  | null : IsWhole null
  | truth (b : Bool) : IsWhole (truth b)
  | number (n : Int) : IsWhole (number (.int n))
  | text {k : SortKey} {ps : List CodePoint} {v : Value} (h : k.HoldsText ps v) : IsWhole k
  | time (s : String) : IsWhole (time s)
  | pointer (p : Pointer) : IsWhole (pointer p)
  | mapping {xs : List SortKey} (h : ∀ x ∈ xs, IsWhole x) : IsWhole (mapping xs)
  | sequence {xs : List SortKey} (h : ∀ x ∈ xs, IsWhole x) : IsWhole (sequence xs)
  | other (s : String) : IsWhole (other s)

/-- One order of two keys is found by their comparison, by their rows, whatever follows them,
    and by their comparison as data. -/
structure ComparesAs (a b : SortKey) (o : Ordering) : Prop where
  keys : a.compare? b = some o
  rows : ∀ r s, compare (a.row ++ r) (b.row ++ s) = o.then (compare r s)
  data : a.toValue.ComparesAs b.toValue o

/-- One order of two listings of keys is found in each of the ways. -/
structure ItemsCompareAs (xs ys : List SortKey) (o : Ordering) : Prop where
  keys : compareItems? xs ys = some o
  rows : ∀ r s, compare (rows xs ++ r) (rows ys ++ s) = o.then (compare r s)
  data : Value.ItemsCompareAs (toValues xs) (toValues ys) o

/-- The order of the first items, and that of the others if these are at one height. -/
theorem ItemsCompareAs.cons {x y : SortKey} {xs ys : List SortKey} {o o' : Ordering}
    (h : ComparesAs x y o) (hrest : ItemsCompareAs xs ys o') :
    ItemsCompareAs (x :: xs) (y :: ys) (o.then o') where
  keys := by
    rw [compareItems?, h.keys]
    cases o <;> simp [hrest.keys]
  rows r s := by
    simp only [SortKey.rows, List.append_assoc, h.rows, hrest.rows, Ordering.then_assoc]
  data := .cons h.data hrest.data

theorem compare_neg_one_row (k : SortKey) (r s : List Int) :
    compare (-1 :: r) (k.row ++ s) = .lt ∧ compare (k.row ++ s) (-1 :: r) = .gt := by
  obtain ⟨rest, hrow⟩ := k.exists_row
  have hlt : compare (-1 : Int) k.rank = .lt := Std.compare_eq_lt.mpr (by omega)
  have hgt : compare (k.rank : Int) (-1) = .gt := Std.compare_eq_gt.mpr (by omega)
  simp [hrow, hlt, hgt]

theorem exists_itemsCompareAs {xs ys : List SortKey}
    (ih : ∀ x ∈ xs, ∀ {y : SortKey}, y.IsWhole → ∃ o, ComparesAs x y o)
    (hys : ∀ y ∈ ys, y.IsWhole) : ∃ o, ItemsCompareAs xs ys o := by
  induction xs generalizing ys with
  | nil =>
    cases ys with
    | nil => exact ⟨.eq, rfl, fun r s => by simp [rows], .nil⟩
    | cons y ys =>
      refine ⟨.lt, rfl, fun r s => ?_, rfl, rfl⟩
      rw [rows, rows, List.append_assoc]
      exact (compare_neg_one_row y r _).1
  | cons x xs ihxs =>
    cases ys with
    | nil =>
      refine ⟨.gt, rfl, fun r s => ?_, rfl, rfl⟩
      rw [rows, rows, List.append_assoc]
      exact (compare_neg_one_row x s _).2
    | cons y ys =>
      obtain ⟨hx, hxs⟩ := List.forall_mem_cons.mp ih
      obtain ⟨hy, hys⟩ := List.forall_mem_cons.mp hys
      obtain ⟨o, ho⟩ := hx hy
      obtain ⟨o', ho'⟩ := ihxs hxs hys
      exact ⟨o.then o', .cons ho ho'⟩

/-! ## Keys of one kind and of different kinds -/

theorem HoldsText.comparesAs {a b : SortKey} {ps qs : List CodePoint} {v w : Value}
    (ha : a.HoldsText ps v) (hb : b.HoldsText qs w) : ComparesAs a b (comparePoints ps qs) where
  keys := by cases ha <;> cases hb <;> simp [compare?, compare_texts]
  rows r s := by
    have hrows : a.row = 3 :: pointsRow ps ∧ b.row = 3 :: pointsRow qs := by
      cases ha <;> cases hb <;> exact ⟨rfl, rfl⟩
    simp [hrows, compare_pointsRow]
  data := by
    have hvalues : a.toValue = .tuple [.int 3, v] ∧ b.toValue = .tuple [.int 3, w] ∧
        v.points? = some ps ∧ w.points? = some qs := by
      cases ha <;> cases hb <;> exact ⟨rfl, rfl, rfl, rfl⟩
    obtain ⟨hav, hbw, hv, hw⟩ := hvalues
    rw [hav, hbw]
    exact .ranked 3 (.single (Value.comparesAs_of_points hv hw))

@[grind →]
theorem HoldsText.rank_eq {a : SortKey} {ps : List CodePoint} {v : Value}
    (h : a.HoldsText ps v) : a.rank = 3 := by
  cases h <;> rfl

theorem exists_toValue (k : SortKey) : ∃ vs, k.toValue = .tuple (.int k.rank :: vs) := by
  cases k with
  | number n => cases n <;> exact ⟨_, rfl⟩
  | text s key => cases key <;> exact ⟨_, rfl⟩
  | _ => exact ⟨_, rfl⟩

/-- Keys of different kinds are ordered by their ranks. -/
theorem comparesAs_of_rank_ne {a b : SortKey} (h : a.rank ≠ b.rank) :
    ComparesAs a b (compare a.rank b.rank) where
  keys := by
    cases a <;> cases b <;> first | rfl | exact absurd rfl h
  rows r s := by
    obtain ⟨as, ha⟩ := a.exists_row
    obtain ⟨bs, hb⟩ := b.exists_row
    have hne : compare a.rank b.rank ≠ .eq := fun heq => h (Nat.compare_eq_eq.mp heq)
    rw [ha, hb, List.cons_append, List.cons_append, List.compare_cons_cons, compare_natCast]
    cases hcompare : compare a.rank b.rank <;> simp_all
  data := by
    obtain ⟨vs, ha⟩ := a.exists_toValue
    obtain ⟨ws, hb⟩ := b.exists_toValue
    have hranks : Value.ComparesAs (.int a.rank) (.int b.rank) (compare (a.rank : Int) b.rank) :=
      Value.comparesAs_of_int rfl rfl
    rw [compare_natCast] at hranks
    rw [ha, hb]
    exact (Value.ItemsCompareAs.of_ne hranks (fun heq => h (Nat.compare_eq_eq.mp heq)) vs ws).tuple

theorem ItemsCompareAs.mapping {xs ys : List SortKey} {o : Ordering} (h : ItemsCompareAs xs ys o) :
    ComparesAs (mapping xs) (mapping ys) o :=
  ⟨h.keys, fun r s => by simp [h.rows], .ranked 6 (.single h.data.tuple)⟩

theorem ItemsCompareAs.sequence {xs ys : List SortKey} {o : Ordering}
    (h : ItemsCompareAs xs ys o) : ComparesAs (sequence xs) (sequence ys) o :=
  ⟨h.keys, fun r s => by simp [h.rows], .ranked 7 (.single h.data.tuple)⟩

theorem comparesAs_truths (b c : Bool) :
    ComparesAs (truth b) (truth c) (compare b.toNat c.toNat) where
  keys := rfl
  rows r s := by simp [compare_natCast]
  data := by
    rw [← compare_natCast]
    exact .ranked 1 (.single (Value.comparesAs_of_int rfl rfl))

theorem comparesAs_numbers (m n : Int) :
    ComparesAs (number (.int m)) (number (.int n)) (compare m n) where
  keys := rfl
  rows r s := by simp
  data := .ranked 2 (.single (Value.comparesAs_of_int rfl rfl))

theorem comparesAs_texts (s t : String) :
    Value.ComparesAs (.text s) (.text t) (compare s t) := by
  rw [compare_texts]
  exact Value.comparesAs_of_points rfl rfl

theorem comparesAs_times (s t : String) : ComparesAs (time s) (time t) (compare s t) where
  keys := rfl
  rows r r' := by simp [compare_pointsRow, compare_texts]
  data := .ranked 4 (.single (comparesAs_texts s t))

theorem comparesAs_pointers (p q : Pointer) : ComparesAs (pointer p) (pointer q)
    ((compare p.className q.className).then (compare p.objectId q.objectId)) where
  keys := rfl
  rows r s := by simp [compare_pointsRow, compare_texts, Ordering.then_assoc]
  data := .ranked 5 (.cons (comparesAs_texts _ _) (.single (comparesAs_texts _ _)))

theorem comparesAs_others (s t : String) : ComparesAs (other s) (other t) (compare s t) where
  keys := rfl
  rows r r' := by simp [compare_pointsRow, compare_texts]
  data := .ranked 8 (.single (comparesAs_texts s t))

theorem IsWhole.exists_comparesAs {a b : SortKey} (ha : a.IsWhole) (hb : b.IsWhole) :
    ∃ o, ComparesAs a b o := by
  induction ha generalizing b with
  | null =>
    cases hb with
    | null => exact ⟨.eq, rfl, fun r s => by simp, .ranked 0 .nil⟩
    | _ => exact ⟨_, comparesAs_of_rank_ne (by grind [rank])⟩
  | truth b =>
    cases hb with
    | truth c => exact ⟨_, comparesAs_truths b c⟩
    | _ => exact ⟨_, comparesAs_of_rank_ne (by grind [rank])⟩
  | number m =>
    cases hb with
    | number n => exact ⟨_, comparesAs_numbers m n⟩
    | _ => exact ⟨_, comparesAs_of_rank_ne (by grind [rank])⟩
  | text h =>
    cases hb with
    | text h' => exact ⟨_, h.comparesAs h'⟩
    | _ => exact ⟨_, comparesAs_of_rank_ne (by grind [rank])⟩
  | time s =>
    cases hb with
    | time t => exact ⟨_, comparesAs_times s t⟩
    | _ => exact ⟨_, comparesAs_of_rank_ne (by grind [rank])⟩
  | pointer p =>
    cases hb with
    | pointer q => exact ⟨_, comparesAs_pointers p q⟩
    | _ => exact ⟨_, comparesAs_of_rank_ne (by grind [rank])⟩
  | mapping _ ih =>
    cases hb with
    | mapping hys =>
      obtain ⟨o, ho⟩ := exists_itemsCompareAs ih hys
      exact ⟨o, ho.mapping⟩
    | _ => exact ⟨_, comparesAs_of_rank_ne (by grind [rank])⟩
  | sequence _ ih =>
    cases hb with
    | sequence hys =>
      obtain ⟨o, ho⟩ := exists_itemsCompareAs ih hys
      exact ⟨o, ho.sequence⟩
    | _ => exact ⟨_, comparesAs_of_rank_ne (by grind [rank])⟩
  | other s =>
    cases hb with
    | other t => exact ⟨_, comparesAs_others s t⟩
    | _ => exact ⟨_, comparesAs_of_rank_ne (by grind [rank])⟩

/-- The order of two keys is the order of their rows. -/
theorem IsWhole.comparesAs {a b : SortKey} (ha : a.IsWhole) (hb : b.IsWhole) :
    ComparesAs a b (compare a.row b.row) := by
  obtain ⟨o, ho⟩ := ha.exists_comparesAs hb
  have hrows := ho.rows [] []
  simp only [List.append_nil, List.compare_nil_nil, Ordering.then_eq] at hrows
  rwa [hrows]

end SortKey

end DocQuery
