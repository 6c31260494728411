-- SUMMARY: The store's sort puts comparable rows in order, and keeps the order of rows that are sorted alike.
import DocQuery.Proofs.Encoding.Stage
import DocQuery.Proofs.Store
import Mathlib.Data.List.Perm.Basic

/-!
# Sorted rows

A sort by several fields is one stable sort for each of them, the least significant first.
One such sort puts rows that the field tells apart in its order, and leaves the others in
the order in which they came: in the order of the sort before.
-/

namespace DocQuery.Store

/-! ## Comparable rows -/

/-- A comparison orders some items: it always answers, and what it does not tell apart lies
    at one height. -/
structure IsOrder {α : Type} (less? : α → α → Option Bool) (items : List α) : Prop where
  answers : ∀ a ∈ items, ∀ b ∈ items, less? a b ≠ none
  asymm : ∀ a ∈ items, ∀ b ∈ items, less? a b = some true → less? b a ≠ some true
  between : ∀ a ∈ items, ∀ b ∈ items, ∀ c ∈ items, less? a c = some true →
    less? a b = some true ∨ less? b c = some true

namespace IsOrder

variable {α : Type} {less? : α → α → Option Bool} {items : List α}

/-- The comparison the other way round orders the items too. -/
theorem flip (h : IsOrder less? items) : IsOrder (fun a b => less? b a) items where
  answers a ha b hb := h.answers b hb a ha
  asymm a ha b hb := h.asymm b hb a ha
  between a ha b hb c hc hac := (h.between c hc b hb a ha hac).symm

theorem mono {items' : List α} (h : IsOrder less? items) (hsub : ∀ a ∈ items', a ∈ items) :
    IsOrder less? items' where
  answers a ha b hb := h.answers a (hsub a ha) b (hsub b hb)
  asymm a ha b hb := h.asymm a (hsub a ha) b (hsub b hb)
  between a ha b hb c hc := h.between a (hsub a ha) b (hsub b hb) c (hsub c hc)

end IsOrder

/-! ## One sort -/

section Insertion

variable {α : Type} {above? : α → α → Option Bool} {R : α → α → Prop}

/-- The first item stands above the second: a sort puts it there, or leaves it there. -/
def StandsAbove (above? : α → α → Option Bool) (R : α → α → Prop) (a b : α) : Prop :=
  above? a b = some true ∨ above? b a ≠ some true ∧ R a b

/-- An item that came before the sorted ones is inserted in order. -/
theorem insert?_spec {a : α} {sorted : List α} (h : IsOrder above? (a :: sorted))
    (hbefore : ∀ b ∈ sorted, R a b) (hsorted : sorted.Pairwise (StandsAbove above? R)) :
    ∃ ys, insert? above? a sorted = some ys ∧ ys.Perm (a :: sorted) ∧
      ys.Pairwise (StandsAbove above? R) := by
  induction sorted with
  | nil => exact ⟨[a], rfl, .refl _, List.pairwise_singleton _ _⟩
  | cons b rest ih =>
    obtain ⟨hhead, htail⟩ := List.pairwise_cons.mp hsorted
    have ha : a ∈ a :: b :: rest := List.mem_cons_self
    have hb : b ∈ a :: b :: rest := List.mem_cons_of_mem a List.mem_cons_self
    obtain ⟨verdict, hverdict⟩ := Option.ne_none_iff_exists'.mp (h.answers b hb a ha)
    cases verdict with
    | true =>
      have hrest : IsOrder above? (a :: rest) := h.mono fun c hc => by
        rcases List.mem_cons.mp hc with rfl | hc
        · exact ha
        · exact List.mem_cons_of_mem a (List.mem_cons_of_mem b hc)
      obtain ⟨ys, hys, hperm, hpairwise⟩ :=
        ih hrest (fun c hc => hbefore c (List.mem_cons_of_mem b hc)) htail
      refine ⟨b :: ys, ?_, (hperm.cons b).trans (List.Perm.swap a b rest),
        List.pairwise_cons.mpr ⟨fun c hc => ?_, hpairwise⟩⟩
      · simp [insert?, hverdict, hys]
      · rcases List.mem_cons.mp (hperm.subset hc) with rfl | hc
        · exact .inl hverdict
        · exact hhead c hc
    | false =>
      refine ⟨a :: b :: rest, ?_, .refl _, List.pairwise_cons.mpr ⟨fun c hc => ?_, hsorted⟩⟩
      · simp [insert?, hverdict]
      · have hnot : above? b a ≠ some true := by
          rw [hverdict]
          decide
        refine .inr ⟨fun hca => ?_, hbefore c hc⟩
        rcases List.mem_cons.mp hc with rfl | hrest
        · exact hnot hca
        · -- What stands below `b` cannot stand above `a`, or `b` would.
          have hc' : c ∈ a :: b :: rest := List.mem_cons_of_mem a hc
          have hcb : above? c b = some true :=
            (h.between c hc' b hb a ha hca).resolve_right hnot
          rcases hhead c hrest with hbc | ⟨hncb, _⟩
          · exact h.asymm c hc' b hb hcb hbc
          · exact hncb hcb

/-- A sort of comparable items puts them in order, and items that it does not tell apart stay
    as they were. -/
theorem sort?_spec {items : List α} (h : IsOrder above? items) (hR : items.Pairwise R) :
    ∃ sorted, sort? above? items = some sorted ∧ sorted.Perm items ∧
      sorted.Pairwise (StandsAbove above? R) := by
  induction items with
  | nil => exact ⟨[], rfl, .refl _, .nil⟩
  | cons a rest ih =>
    obtain ⟨hhead, htail⟩ := List.pairwise_cons.mp hR
    obtain ⟨sorted, hsorted, hperm, hpairwise⟩ :=
      ih (h.mono fun b hb => List.mem_cons_of_mem a hb) htail
    have hinsert : IsOrder above? (a :: sorted) :=
      h.mono fun b hb => (hperm.cons a).subset hb
    obtain ⟨ys, hys, hys', hpairwise'⟩ :=
      insert?_spec hinsert (fun b hb => hhead b (hperm.subset hb)) hpairwise
    refine ⟨ys, ?_, hys'.trans (hperm.cons a), hpairwise'⟩
    rw [sort?, hsorted]
    exact hys

end Insertion

/-! ## Sorts by columns -/

/-- The rows can be compared by a column. -/
def AreComparable (name : String) (rows : List Value) : Prop :=
  IsOrder (fun a b => below? (sortKey name a) (sortKey name b)) rows

theorem above?_ascending (name : String) : above? name (.int Direction.ascending.sign) =
    fun a b => below? (sortKey name a) (sortKey name b) := by
  have hsign : (Value.int Direction.ascending.sign == .int (-1)) = false := by decide
  funext a b
  rw [above?, hsign, if_neg Bool.false_ne_true]

theorem above?_descending (name : String) : above? name (.int Direction.descending.sign) =
    fun a b => below? (sortKey name b) (sortKey name a) := by
  have hsign : (Value.int Direction.descending.sign == .int (-1)) = true := by decide
  funext a b
  rw [above?, if_pos hsign]

theorem AreComparable.isOrder {name : String} {rows : List Value} (h : AreComparable name rows)
    (direction : Direction) : IsOrder (above? name (.int direction.sign)) rows := by
  cases direction with
  | ascending =>
    rw [above?_ascending]
    exact h
  | descending =>
    rw [above?_descending]
    exact h.flip

/-- The first document comes before the second by columns with directions; where these do not
    tell the two apart, it comes before it in the collection. -/
def Precedes (docs : List Value) : List (String × Direction) → Value → Value → Prop
  | [] => fun a b => [a, b].Sublist docs
  | c :: columns => StandsAbove (above? c.1 (.int c.2.sign)) (Precedes docs columns)

/-- Comparable rows of a collection are sorted by the columns. -/
theorem sortBy?_spec {docs rows : List Value} (hrows : rows.Sublist docs)
    {columns : List (String × Direction)} (h : ∀ c ∈ columns, AreComparable c.1 rows) :
    ∃ sorted, sortBy? ((Encoding.sortFields columns).map fun (k, v) => (.text k, v)) rows =
        some sorted ∧
      sorted.Perm rows ∧ sorted.Pairwise (Precedes docs columns) := by
  induction columns with
  | nil =>
    exact ⟨rows, rfl, .refl _, List.pairwise_iff_forall_sublist.mpr fun hab => hab.trans hrows⟩
  | cons c columns ih =>
    obtain ⟨hhead, htail⟩ := List.forall_mem_cons.mp h
    obtain ⟨before, hbefore, hperm, hpairwise⟩ := ih htail
    obtain ⟨sorted, hsorted, hperm', hpairwise'⟩ :=
      sort?_spec ((hhead.isOrder c.2).mono fun a ha => hperm.subset ha) hpairwise
    refine ⟨sorted, ?_, hperm'.trans hperm, hpairwise'⟩
    rw [Encoding.sortFields, List.map_cons, List.map_cons, sortBy?, ← Encoding.sortFields, hbefore]
    exact hsorted

end DocQuery.Store
