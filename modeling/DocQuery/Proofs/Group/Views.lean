-- SUMMARY: Sorted views of grouped results: permutations of the pairs, in the order of their tokens, stable both ways.
import DocQuery.Group.Result
import DocQuery.Proofs.Sorting
import DocQuery.Proofs.Value.SortKey
import Mathlib.Data.List.Permutation

/-!
# Sorted views

The sort key of a value, as data, is its token. Tokens of values without floating point
numbers are all comparable, and they are ordered as the rows of numbers that stand for them.
So each view of a grouped result is a stable sort of its pairs. The descending views are
sorted from behind and then turned around, which keeps the order of pairs with equal tokens.
-/

namespace DocQuery

open Sorting (Orders Sorts)

namespace Value

/-! ## Tokens -/

/-- The value is built without floating point numbers. -/
inductive IsSortable : Value → Prop
  | null : IsSortable .null
  | bool (b : Bool) : IsSortable (.bool b)
  | int (n : Int) : IsSortable (.int n)
  | text (s : String) : IsSortable (.text s)
  | brokenText (t : Text.BrokenText) : IsSortable (.brokenText t)
  | tagKey (k : TagKey) : IsSortable (.tagKey k)
  | date (d : Date) : IsSortable (.date d)
  | datetime (t : DateTime) : IsSortable (.datetime t)
  | pointer (p : Pointer) : IsSortable (.pointer p)
  | list {xs : List Value} (h : ∀ x ∈ xs, IsSortable x) : IsSortable (.list xs)
  | tuple {xs : List Value} (h : ∀ x ∈ xs, IsSortable x) : IsSortable (.tuple xs)
  | map {es : List (Value × Value)} (h : ∀ e ∈ es, IsSortable e.2) : IsSortable (.map es)

/-- What a value is sorted by, as data. -/
def token (v : Value) : Value :=
  (SortKey.ofValue v).toValue

/-- The token of the first value lies below that of the second or equals it. -/
def AtMost (a b : Value) : Prop :=
  a.token.less? b.token = some true ∨ (a.token == b.token) = true

/-- The token of a value as a row of numbers. -/
def tokenRow (v : Value) : List Int :=
  (SortKey.ofValue v).row

theorem IsSortable.isWhole {v : Value} (h : v.IsSortable) : (SortKey.ofValue v).IsWhole := by
  have hitems : ∀ xs : List Value, (∀ x ∈ xs, (SortKey.ofValue x).IsWhole) →
      ∀ k ∈ SortKey.ofValues xs, k.IsWhole := by
    intro xs
    induction xs with
    | nil => simp [SortKey.ofValues]
    | cons x xs ih => simp_all [SortKey.ofValues]
  induction h with
  | null => exact .null
  | bool b => exact .truth b
  | int n => exact .number n
  | text s => exact .text (.text s)
  | brokenText t => exact .text (.brokenText t)
  | tagKey k => exact .text (.tagKey k)
  | date d => exact .time _
  | datetime t => exact .time _
  | pointer p => exact .pointer p
  | list _ ih => exact .sequence (hitems _ ih)
  | tuple _ ih => exact .sequence (hitems _ ih)
  | @map es _ ih =>
    have hentries : SortKey.ofEntries es = SortKey.ofValues (entryValues es) := by
      clear ih
      induction es with
      | nil => rfl
      | cons e es ihes => simp_all [SortKey.ofEntries, SortKey.ofValues, entryValues]
    rw [SortKey.ofValue, hentries]
    exact .mapping (hitems _ (List.forall_mem_map.mpr ih))

namespace IsSortable

variable {a b c : Value}

theorem comparesAs (ha : a.IsSortable) (hb : b.IsSortable) :
    (SortKey.ofValue a).ComparesAs (SortKey.ofValue b) (compare a.tokenRow b.tokenRow) :=
  ha.isWhole.comparesAs hb.isWhole

/-- Two tokens are always compared, and the order is that of their rows. -/
theorem less?_eq (ha : a.IsSortable) (hb : b.IsSortable) :
    a.token.less? b.token = some (compare a.tokenRow b.tokenRow == .lt) :=
  (ha.comparesAs hb).data.less

theorem token_beq_iff (ha : a.IsSortable) (hb : b.IsSortable) :
    (a.token == b.token) = true ↔ a.tokenRow = b.tokenRow := by
  rw [token, token, (ha.comparesAs hb).data.equal, beq_iff_eq, Std.compare_eq_iff_eq]

theorem less_eq (ha : a.IsSortable) (hb : b.IsSortable) :
    (SortKey.ofValue a).less (SortKey.ofValue b) = (compare a.tokenRow b.tokenRow == .lt) := by
  rw [SortKey.less, (ha.comparesAs hb).keys]
  rfl

theorem atMost_iff (ha : a.IsSortable) (hb : b.IsSortable) :
    a.AtMost b ↔ (compare a.tokenRow b.tokenRow).isLE = true := by
  rw [AtMost, ha.less?_eq hb, ha.token_beq_iff hb, Ordering.isLE_iff_eq_lt_or_eq_eq,
    Std.compare_eq_iff_eq]
  simp

theorem atMost_refl (ha : a.IsSortable) : a.AtMost a :=
  (ha.atMost_iff ha).mpr (by simp)

theorem atMost_trans (ha : a.IsSortable) (hb : b.IsSortable) (hc : c.IsSortable)
    (hab : a.AtMost b) (hbc : b.AtMost c) : a.AtMost c :=
  (ha.atMost_iff hc).mpr
    (Std.TransOrd.isLE_trans ((ha.atMost_iff hb).mp hab) ((hb.atMost_iff hc).mp hbc))

/-- What does not lie below another value has this value below it or at its height. -/
theorem atMost_of_not_less (ha : a.IsSortable) (hb : b.IsSortable)
    (h : (SortKey.ofValue b).less (SortKey.ofValue a) = false) : a.AtMost b := by
  rw [ha.atMost_iff hb, Std.OrientedOrd.eq_swap]
  rw [hb.less_eq ha] at h
  cases hcompare : compare b.tokenRow a.tokenRow <;> simp_all

theorem atMost_total (ha : a.IsSortable) (hb : b.IsSortable) : a.AtMost b ∨ b.AtMost a := by
  cases h : (SortKey.ofValue b).less (SortKey.ofValue a) with
  | false => exact .inl (ha.atMost_of_not_less hb h)
  | true =>
    refine .inr ((hb.atMost_iff ha).mpr ?_)
    rw [hb.less_eq ha, beq_iff_eq] at h
    rw [h]
    rfl

end IsSortable

end Value

namespace GroupResult

/-! ## Views -/

/-- A view of a result: its pairs, in the order of the tokens of their keys or counts, and those
    with one token as in the result. -/
structure IsView (r : GroupResult) (b : SortedBy) (direction : Direction)
    (view : List (Value × Value)) : Prop where
  perm : view.Perm r.toPairs
  ordered : view.Pairwise fun p q =>
    match direction with
    | .ascending => (b.of p).AtMost (b.of q)
    | .descending => (b.of q).AtMost (b.of p)
  stable : ∀ v : Value, v.IsSortable →
    (view.filter fun p => (b.of p).token == v.token) =
      r.toPairs.filter fun p => (b.of p).token == v.token

/-- Pairs whose sorted parts hold no floating point number are in an order. -/
theorem orders (b : SortedBy) :
    Orders (m := Id) (fun p q => pure (b.less p q)) b.less fun p => (b.of p).IsSortable :=
  .of_compare (fun p => (b.of p).tokenRow) (fun _ _ => rfl) fun hp hq => hp.less_eq hq

theorem alike_eq_token_beq {b : SortedBy} {p q : Value × Value} (hp : (b.of p).IsSortable)
    (hq : (b.of q).IsSortable) :
    Sorting.alike b.less p q = ((b.of q).token == (b.of p).token) := by
  rw [Bool.eq_iff_iff, hq.token_beq_iff hp, Sorting.alike, SortedBy.less, SortedBy.less,
    hp.less_eq hq, hq.less_eq hp, Std.OrientedOrd.eq_swap (a := (b.of p).tokenRow),
    ← Std.compare_eq_iff_eq (a := (b.of q).tokenRow)]
  cases compare (b.of q).tokenRow (b.of p).tokenRow <;> decide

/-- Pairs that were sorted are a view, if the sorted parts lie at most at those behind them. -/
theorem isView_of_keeps {r : GroupResult} {b : SortedBy} {direction : Direction}
    {less : Value × Value → Value × Value → Bool} {view : List (Value × Value)}
    (h : ∀ p ∈ r.toPairs, (b.of p).IsSortable)
    (hkeeps : Sorting.Keeps less (fun p => (b.of p).IsSortable) r.toPairs view)
    (halike : ∀ {p q}, (b.of p).IsSortable → (b.of q).IsSortable →
      Sorting.alike less p q = ((b.of q).token == (b.of p).token))
    (hordered : view.Pairwise fun p q =>
      match direction with
      | .ascending => (b.of p).AtMost (b.of q)
      | .descending => (b.of q).AtMost (b.of p)) : r.IsView b direction view := by
  refine ⟨hkeeps.perm, hordered, fun v hv => ?_⟩
  have hof : b.of (v, v) = v := by cases b <;> rfl
  have hsame : ∀ rows : List (Value × Value), (∀ p ∈ rows, (b.of p).IsSortable) →
      rows.filter (Sorting.alike less (v, v)) =
        rows.filter fun p => (b.of p).token == v.token := by
    intro rows hrows
    refine List.filter_congr fun p hp => ?_
    rw [halike (by rwa [hof]) (hrows p hp), hof]
  rw [← hsame view (hkeeps.forall_mem h), ← hsame r.toPairs h]
  exact hkeeps.alike (v, v) (by rwa [hof])

theorem sorted_isView {r : GroupResult} {b : SortedBy} (direction : Direction)
    (h : ∀ p ∈ r.toPairs, (b.of p).IsSortable) : r.IsView b direction (r.sorted b direction) := by
  cases direction with
  | ascending =>
    have hsorts := Sorting.sort_sorts (orders b) h
    exact isView_of_keeps h hsorts.keeps alike_eq_token_beq
      (hsorts.rises.imp_of_mem fun hp hq hle =>
        (hsorts.forall_mem h _ hp).atMost_of_not_less (hsorts.forall_mem h _ hq) hle)
  | descending =>
    have hsorts := Sorting.sortFalling_sorts (orders b) h
    refine isView_of_keeps h hsorts.keeps (fun hp hq => ?_)
      (hsorts.rises.imp_of_mem fun hp hq hle =>
        (hsorts.forall_mem h _ hq).atMost_of_not_less (hsorts.forall_mem h _ hp) hle)
    rw [← alike_eq_token_beq hp hq, Sorting.alike, Sorting.alike, Bool.and_comm]

/-- Tokens of values without floating point numbers are always compared, and the comparison is
    reflexive, transitive and total. Each sorted view of a result with such keys or counts has
    all its pairs, in the order of the tokens, and those with equal tokens as in the result. -/
theorem tokens_ordered_views_sorted :
    (∀ {a b c : Value}, a.IsSortable → b.IsSortable → c.IsSortable →
      (∃ less, a.token.less? b.token = some less) ∧ a.AtMost a ∧
        (a.AtMost b → b.AtMost c → a.AtMost c) ∧ (a.AtMost b ∨ b.AtMost a)) ∧
    ∀ {r : GroupResult} {b : SortedBy} (direction : Direction),
      (∀ p ∈ r.toPairs, (b.of p).IsSortable) → r.IsView b direction (r.sorted b direction) :=
  ⟨fun ha hb hc => ⟨⟨_, ha.less?_eq hb⟩, ha.atMost_refl, ha.atMost_trans hb hc,
    ha.atMost_total hb⟩, sorted_isView⟩

/-- A null among other keys, and two genres with one count, which keep their order when the
    counts fall. -/
theorem views_sorted_genres :
    let nested : Value := .map [(.text "genre", .list [.null, .int 1990])]
    let r : GroupResult := ⟨[(.text "rock", { key := .text "rock", count := .int 2 }),
      (.null, { key := .null, count := .int 7 }),
      (.text "jazz", { key := .text "jazz", count := .int 2 })], none⟩
    nested.AtMost (.tuple [.text "rock"]) ∧
      r.sorted .count .descending =
        [(.null, .int 7), (.text "rock", .int 2), (.text "jazz", .int 2)] ∧
      r.IsView .count .descending (r.sorted .count .descending) := by
  intro nested r
  have hnested : nested.IsSortable :=
    .map fun e he => by
      obtain rfl := List.mem_singleton.mp he
      exact .list fun x hx => by
        rcases List.mem_pair.mp hx with rfl | rfl
        · exact .null
        · exact .int 1990
  have htuple : (Value.tuple [.text "rock"]).IsSortable :=
    .tuple fun x hx => by
      obtain rfl := List.mem_singleton.mp hx
      exact .text "rock"
  obtain ⟨hvalues, hviews⟩ := tokens_ordered_views_sorted
  refine ⟨?_, by cbv, hviews .descending fun p hp => ?_⟩
  · exact (hvalues hnested htuple htuple).2.2.2.resolve_right (by cbv; simp)
  · simp only [toPairs, toGroups, Group.pair, r, List.map_cons, List.map_nil, List.mem_cons,
      List.not_mem_nil, or_false] at hp
    rcases hp with rfl | rfl | rfl <;> exact .int _

end GroupResult

end DocQuery
