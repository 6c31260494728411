-- SUMMARY: Lookup forms of nested keys are equal when the keys are, with tuples read as lists.
import DocQuery.Group.Key
import DocQuery.Proofs.Except
import DocQuery.Proofs.Sorting
import DocQuery.Proofs.Value.SameData
import DocQuery.Proofs.Value.SortKey

/-!
# Lookup forms of nested keys

Keys of groups are nested listings and mappings. Two keys stand for the same if they are equal
once every tuple in them is read as a list. Their lookup forms are made of tuples only: a
listing or mapping becomes a tuple with a marker in front, so the two kinds stay apart, and the
entries of a mapping are sorted by their keys. As no key stands twice in a mapping, two
sorted rows of entries are equal item by item exactly when each entry of the one mapping has
its like in the other.
-/

namespace DocQuery

open Sorting (Orders Rises Sorts)
open SortKey (comparePoints)
open Text (CodePoint)

namespace Value

/-! ## Keys -/

/-- A text, broken or not. -/
inductive IsText : Value → Prop
  | text (s : String) : IsText (.text s)
  | brokenText (t : Text.BrokenText) : IsText (.brokenText t)

/-- A scalar or a pointer. -/
inductive IsLeaf : Value → Prop
  | scalar {v : Value} (h : v.IsScalar) : IsLeaf v
  | pointer (p : Pointer) : IsLeaf (.pointer p)

/-- A value built from scalars and pointers by lists, tuples, and mappings with texts as keys,
    no two of them equal. A reserved key is no such text: the lookup form of a mapping has it under
    its name. -/
inductive IsNested : Value → Prop
  | leaf {v : Value} (h : v.IsLeaf) : IsNested v
  | sequence {v : Value} {xs : List Value} (h : v.sequence? = some xs)
    (hxs : ∀ x ∈ xs, IsNested x) : IsNested v
  | map {es : List (Value × Value)} (hkeys : ∀ e ∈ es, IsText e.1)
    (hdiffer : es.Pairwise fun e f => (e.1 == f.1) = false)
    (hes : ∀ e ∈ es, IsNested e.2) : IsNested (.map es)

mutual

/-- A value with every tuple in it read as a list. -/
def asLists : Value → Value
  | .list xs => .list (allAsLists xs)
  | .tuple xs => .list (allAsLists xs)
  | .map es => .map (entriesAsLists es)
  | v => v

/-- Each item with tuples read as lists. -/
def allAsLists : List Value → List Value
  | [] => []
  | x :: xs => x.asLists :: allAsLists xs

/-- Each entry value with tuples read as lists. -/
def entriesAsLists : List (Value × Value) → List (Value × Value)
  | [] => []
  | (k, v) :: es => (k, v.asLists) :: entriesAsLists es

end

theorem allAsLists_eq_map (xs : List Value) : allAsLists xs = xs.map asLists := by
  induction xs with
  | nil => rfl
  | cons x xs ih => rw [allAsLists, ih, List.map_cons]

theorem entriesAsLists_eq_map (es : List (Value × Value)) :
    entriesAsLists es = es.map fun e => (e.1, e.2.asLists) := by
  induction es with
  | nil => rfl
  | cons e es ih => rw [entriesAsLists, ih, List.map_cons]

theorem asLists_of_sequence? {v : Value} {xs : List Value} (h : v.sequence? = some xs) :
    v.asLists = .list (xs.map asLists) := by
  cases v <;> cases h <;> simp only [asLists, allAsLists_eq_map]

/-! ## Equality of listings and mappings -/

theorem equalItems_iff {xs ys : List Value} :
    equalItems xs ys = true ↔ List.Forall₂ (fun x y => (x == y) = true) xs ys := by
  induction xs generalizing ys with
  | nil => cases ys <;> simp [equalItems]
  | cons x xs ih =>
    cases ys with
    | nil => simp [equalItems]
    | cons y ys =>
      rw [equalItems, Bool.and_eq_true, ih, List.forall₂_cons]
      rfl

theorem list_beq_iff {xs ys : List Value} :
    (Value.list xs == .list ys) = true ↔ List.Forall₂ (fun x y => (x == y) = true) xs ys :=
  equalItems_iff

theorem tuple_beq_iff {xs ys : List Value} :
    (Value.tuple xs == .tuple ys) = true ↔ List.Forall₂ (fun x y => (x == y) = true) xs ys :=
  equalItems_iff

theorem pair_beq_iff {k w k' w' : Value} : (Value.tuple [k, w] == .tuple [k', w']) = true ↔
    (k == k') = true ∧ (w == w') = true := by
  rw [tuple_beq_iff, List.forall₂_cons, List.forall₂_cons]
  simp

/-- Marked tuples are equal when their markers and their items are. -/
theorem marked_beq_iff {m m' : Value} {xs ys : List Value} :
    (Value.tuple [m, .tuple xs] == .tuple [m', .tuple ys]) = true ↔
      (m == m') = true ∧ List.Forall₂ (fun x y => (x == y) = true) xs ys := by
  rw [pair_beq_iff, tuple_beq_iff]

theorem entriesIn_iff {es fs : List (Value × Value)} : entriesIn es fs = true ↔
    ∀ e ∈ es, ∃ f ∈ fs, (e.1 == f.1) = true ∧ (e.2 == f.2) = true := by
  induction es with
  | nil => simp [entriesIn]
  | cons e es ih =>
    rw [entriesIn, Bool.and_eq_true, List.any_eq_true, ih, List.forall_mem_cons]
    simp only [Bool.and_eq_true]
    rfl

theorem allCanBeKeys_iff {xs : List Value} :
    allCanBeKeys xs = true ↔ ∀ x ∈ xs, x.canBeKey = true := by
  induction xs with
  | nil => simp [allCanBeKeys]
  | cons x xs ih => rw [allCanBeKeys, Bool.and_eq_true, ih, List.forall_mem_cons]

/-! ## Lookup forms -/

theorem lookupKeys_eq_mapM (xs : List Value) : lookupKeys xs = xs.mapM lookupKey := by
  induction xs with
  | nil => rfl
  | cons x xs ih => rw [lookupKeys, ih, List.mapM_cons]; rfl

theorem lookupEntries_eq_mapM (es : List (Value × Value)) :
    lookupEntries es =
      es.mapM fun e => e.2.lookupKey.map fun k => .tuple [e.1.shownText, k] := by
  induction es with
  | nil => rfl
  | cons e es ih =>
    rw [lookupEntries, ih, List.mapM_cons]
    cases e.2.lookupKey <;> rfl

theorem lookupKey_of_sequence? {v : Value} {xs ks : List Value} (h : v.sequence? = some xs)
    (hks : List.Forall₂ (fun x k => x.lookupKey = .ok k) xs ks) :
    v.lookupKey = .ok (.tuple [sequenceMarker, .tuple ks]) := by
  have hkeys : lookupKeys xs = .ok ks := by
    rw [lookupKeys_eq_mapM]
    exact mapM_eq_ok_iff.mpr hks
  cases v <;> cases h <;> · rw [lookupKey, hkeys]; rfl

theorem IsLeaf.lookupKey_eq {v : Value} (h : v.IsLeaf) : v.lookupKey = .ok v := by
  cases h with
  | scalar h => cases h <;> rfl
  | pointer p => rfl

theorem IsLeaf.asLists_eq {v : Value} (h : v.IsLeaf) : v.asLists = v := by
  cases h with
  | scalar h => cases h <;> rfl
  | pointer p => rfl

theorem IsLeaf.canBeKey {v : Value} (h : v.IsLeaf) : v.canBeKey = true := by
  cases h with
  | scalar h => cases h <;> rfl
  | pointer p => rfl

theorem IsLeaf.beq_self {v : Value} (h : v.IsLeaf) : (v == v) = true := by
  cases h with
  | scalar h => exact h.beq_self
  | pointer p => exact beq_self_eq_true p

/-! ## Sorted entries -/

theorem IsText.shownText_eq {k : Value} (h : k.IsText) : k.shownText = k := by
  cases h <;> rfl

theorem IsText.canBeKey {k : Value} (h : k.IsText) : k.canBeKey = true := by
  cases h <;> rfl

theorem IsText.exists_points {k : Value} (h : k.IsText) : ∃ ps, k.points? = some ps := by
  cases h <;> exact ⟨_, rfl⟩

/-- The code points of the text in front of a pair. -/
def entryPoints : Value → List CodePoint
  | .tuple (k :: _) => k.points?.getD []
  | _ => []

/-- Texts are equal when their code points are. -/
theorem beq_iff_points {k k' : Value} (h : k.IsText) (h' : k'.IsText) (w w' : Value) :
    (k == k') = true ↔ entryPoints (.tuple [k, w]) = entryPoints (.tuple [k', w']) := by
  obtain ⟨ps, hps⟩ := h.exists_points
  obtain ⟨qs, hqs⟩ := h'.exists_points
  rw [(comparesAs_of_points hps hqs).equal, beq_iff_eq, SortKey.comparePoints_eq_eq_iff]
  simp [entryPoints, hps, hqs]

/-- Pairs of a text and a value that equals itself, with no text twice. -/
structure AreEntries (rows : List Value) : Prop where
  pair : ∀ r ∈ rows, ∃ k w, r = .tuple [k, w] ∧ k.IsText ∧ (w == w) = true
  differ : (rows.map entryPoints).Nodup

namespace AreEntries

variable {rows : List Value} {r s : Value}

/-- Entries are compared by their texts: no two of them leave it to their values. -/
theorem comparesAs (h : AreEntries rows) (hr : r ∈ rows) (hs : s ∈ rows) :
    ComparesAs r s (comparePoints (entryPoints r) (entryPoints s)) := by
  obtain ⟨k, w, hrow, hk, hw⟩ := h.pair r hr
  obtain ⟨k', w', hrow', hk', -⟩ := h.pair s hs
  obtain ⟨ps, hps⟩ := hk.exists_points
  obtain ⟨qs, hqs⟩ := hk'.exists_points
  have htexts : ComparesAs k k' (comparePoints (entryPoints r) (entryPoints s)) := by
    simpa [hrow, hrow', entryPoints, hps, hqs] using comparesAs_of_points hps hqs
  by_cases hsame : entryPoints r = entryPoints s
  · obtain rfl : r = s := List.inj_on_of_nodup_map h.differ hr hs hsame
    rw [SortKey.comparePoints_eq_eq_iff.mpr rfl] at htexts ⊢
    obtain ⟨rfl, rfl⟩ : k = k' ∧ w = w' := by simpa [hrow] using hrow'
    have hvalues : ItemsCompareAs [w] [w] .eq :=
      ⟨equalItems_iff.mpr (.cons hw .nil), by rw [lessItems?, if_pos hw]; rfl⟩
    rw [hrow]
    exact (ItemsCompareAs.cons htexts hvalues).tuple
  · rw [hrow, hrow'] at hsame ⊢
    rw [hrow, hrow'] at htexts
    exact (ItemsCompareAs.of_ne htexts (mt SortKey.comparePoints_eq_eq_iff.mp hsame) [w] [w']).tuple

theorem orders (h : AreEntries rows) :
    Orders less? (fun r s => comparePoints (entryPoints r) (entryPoints s) == .lt) (· ∈ rows) :=
  .of_compare (fun r => (entryPoints r).map (·.number)) (fun hr hs => (h.comparesAs hr hs).less)
    fun _ _ => rfl

/-- Entries are sorted, and then their texts rise. -/
theorem exists_sorted (h : AreEntries rows) : ∃ sorted, Sorting.sortM less? rows = some sorted ∧
    sorted.Perm rows ∧ (sorted.map entryPoints).Pairwise fun ps qs => comparePoints ps qs = .lt := by
  obtain ⟨sorted, hsorted, hsorts⟩ := Sorting.sortM_sorts h.orders fun r hr => hr
  refine ⟨sorted, hsorted, hsorts.keeps.perm, List.pairwise_map.mpr ?_⟩
  have hdiffer : sorted.Pairwise fun r s => entryPoints r ≠ entryPoints s :=
    List.pairwise_map.mp ((hsorts.keeps.perm.map entryPoints).nodup_iff.mpr h.differ)
  refine (hsorts.rises.and hdiffer).imp fun {r s} hrs => ?_
  obtain ⟨hle, hne⟩ := hrs
  simp only [SortKey.comparePoints_swap (entryPoints s)] at hle
  have hneq := mt SortKey.comparePoints_eq_eq_iff.mp hne
  cases hcompare : comparePoints (entryPoints r) (entryPoints s) <;> simp_all

end AreEntries

/-- Two rows with rising texts are related item by item if they are of one length and each
    item of the first is related to one of the second, with the same text. -/
theorem forall₂_iff_of_rising {R : Value → Value → Prop} {xs ys : List Value}
    (hxs : (xs.map entryPoints).Pairwise fun ps qs => comparePoints ps qs = .lt)
    (hys : (ys.map entryPoints).Pairwise fun ps qs => comparePoints ps qs = .lt)
    (hR : ∀ x ∈ xs, ∀ y ∈ ys, R x y → entryPoints x = entryPoints y) :
    List.Forall₂ R xs ys ↔ xs.length = ys.length ∧ ∀ x ∈ xs, ∃ y ∈ ys, R x y := by
  have hnodup : ∀ {ms : List (List CodePoint)},
      ms.Pairwise (fun ps qs => comparePoints ps qs = .lt) → ms.Nodup := by
    refine fun h => h.imp fun hlt heq => ?_
    rw [SortKey.comparePoints_eq_eq_iff.mpr heq] at hlt
    cases hlt
  refine ⟨fun h => ⟨h.length_eq, fun x hx => exists_mem_of_forall₂ h hx⟩, ?_⟩
  rintro ⟨hlength, hsome⟩
  -- The rows have the same texts, in the same order.
  have hsubset : xs.map entryPoints ⊆ ys.map entryPoints := by
    intro ps hps
    obtain ⟨x, hx, rfl⟩ := List.mem_map.mp hps
    obtain ⟨y, hy, hxy⟩ := hsome x hx
    exact List.mem_map.mpr ⟨y, hy, (hR x hx y hy hxy).symm⟩
  have hperm : (xs.map entryPoints).Perm (ys.map entryPoints) :=
    (List.subperm_of_subset (hnodup hxs) hsubset).perm_of_length_le (by simp [hlength])
  have hsame : xs.map entryPoints = ys.map entryPoints := by
    refine hperm.eq_of_pairwise (fun ps qs _ _ hlt hgt => ?_) hxs hys
    rw [SortKey.comparePoints_swap, hgt] at hlt
    cases hlt
  refine List.forall₂_iff_get.mpr ⟨hlength, fun i hi hi' => ?_⟩
  obtain ⟨y, hy, hxy⟩ := hsome _ (List.get_mem xs ⟨i, hi⟩)
  have hplace : entryPoints (xs.get ⟨i, hi⟩) = entryPoints (ys.get ⟨i, hi'⟩) := by
    have hget := congrArg (·[i]?) hsame
    simpa [hi, hi'] using hget
  have hy' : y = ys.get ⟨i, hi'⟩ := List.inj_on_of_nodup_map (hnodup hys) hy (List.get_mem ys _)
    ((hR _ (List.get_mem xs _) y hy hxy).symm.trans hplace)
  exact hy' ▸ hxy

/-! ## Mappings -/

/-- The pair of a text and the lookup form of its value. -/
def IsEntryForm (e : Value × Value) (r : Value) : Prop :=
  ∃ w, e.2.lookupKey = .ok w ∧ r = .tuple [e.1, w]

/-- The lookup form of a mapping is made of its entries, sorted. -/
structure IsMappingForm (es : List (Value × Value)) (sorted : List Value) : Prop where
  entries : ∃ rows, List.Forall₂ IsEntryForm es rows ∧ AreEntries rows ∧ sorted.Perm rows
  rising : (sorted.map entryPoints).Pairwise fun ps qs => comparePoints ps qs = .lt
  lookup : (Value.map es).lookupKey = .ok (.tuple [mappingMarker, .tuple sorted])

variable {es fs : List (Value × Value)}

theorem lookupKey_map {rows sorted : List Value} (hkeys : ∀ e ∈ es, IsText e.1)
    (hrows : List.Forall₂ IsEntryForm es rows) (hsorted : Sorting.sortM less? rows = some sorted) :
    (Value.map es).lookupKey = .ok (.tuple [mappingMarker, .tuple sorted]) := by
  have hentries : lookupEntries es = .ok rows := by
    rw [lookupEntries_eq_mapM]
    refine mapM_eq_ok_iff.mpr ?_
    clear hsorted
    induction hrows with
    | nil => exact .nil
    | cons hhead _ ih =>
      obtain ⟨w, hw, rfl⟩ := hhead
      obtain ⟨hkey, hkeys⟩ := List.forall_mem_cons.mp hkeys
      exact .cons (by rw [hw, hkey.shownText_eq]; rfl) (ih hkeys)
  rw [lookupKey, hentries]
  show mappingKey rows = _
  rw [mappingKey, hsorted]

theorem exists_isMappingForm (hkeys : ∀ e ∈ es, IsText e.1)
    (hdiffer : es.Pairwise fun e f => (e.1 == f.1) = false)
    (h : ∀ e ∈ es, ∃ w, e.2.lookupKey = .ok w ∧ w.canBeKey = true ∧ (w == w) = true) :
    ∃ sorted, IsMappingForm es sorted ∧ ∀ r ∈ sorted, r.canBeKey = true ∧ (r == r) = true := by
  obtain ⟨rows, hrows⟩ : ∃ rows, List.Forall₂ (fun e (r : Value) => e.1.IsText ∧
      ∃ w, e.2.lookupKey = .ok w ∧ r = .tuple [e.1, w] ∧ w.canBeKey = true ∧ (w == w) = true)
      es rows := by
    refine exists_forall₂ fun e he => ?_
    obtain ⟨w, hw, hcan, hself⟩ := h e he
    exact ⟨_, hkeys e he, w, hw, rfl, hcan, hself⟩
  have hforms : List.Forall₂ IsEntryForm es rows :=
    hrows.imp fun _ _ ⟨_, w, hw, hr, _⟩ => ⟨w, hw, hr⟩
  have hentries : AreEntries rows := by
    refine ⟨forall_mem_of_forall₂ hrows fun e r ⟨hk, w, _, hr, _, hself⟩ =>
      ⟨e.1, w, hr, hk, hself⟩, ?_⟩
    have hpoints : rows.map entryPoints = es.map fun e => entryPoints (.tuple [e.1, .null]) :=
      (map_eq_map_of_forall₂ hrows fun _ _ ⟨_, _, _, hr, _⟩ => by rw [hr]; rfl).symm
    rw [hpoints]
    refine List.pairwise_map.mpr (hdiffer.imp_of_mem fun he hf hne heq => ?_)
    rw [(beq_iff_points (hkeys _ he) (hkeys _ hf) .null .null).mpr heq] at hne
    cases hne
  obtain ⟨sorted, hsorted, hperm, hrising⟩ := hentries.exists_sorted
  refine ⟨sorted, ⟨⟨rows, hforms, hentries, hperm⟩, hrising, lookupKey_map hkeys hforms hsorted⟩,
    fun r hr => ?_⟩
  refine (forall_mem_of_forall₂ hrows (Q := fun r => r.canBeKey = true ∧ (r == r) = true)
    fun e r hform => ?_) r (hperm.subset hr)
  obtain ⟨hk, w, -, rfl, hcan, hself⟩ := hform
  obtain ⟨ps, hps⟩ := hk.exists_points
  have hkey : (e.1 == e.1) = true := by
    rw [(comparesAs_of_points hps hps).equal, SortKey.comparePoints_eq_eq_iff.mpr rfl]
    rfl
  refine ⟨allCanBeKeys_iff.mpr ?_, equalItems_iff.mpr (.cons hkey (.cons hself .nil))⟩
  rintro x (_ | ⟨_, _ | ⟨_, hx⟩⟩)
  · exact hk.canBeKey
  · exact hcan
  · cases hx

/-- Nested keys have lookup forms, which can be keys and equal themselves. -/
theorem IsNested.exists_lookupKey {v : Value} (h : v.IsNested) :
    ∃ k, v.lookupKey = .ok k ∧ k.canBeKey = true ∧ (k == k) = true := by
  induction h with
  | leaf h => exact ⟨_, h.lookupKey_eq, h.canBeKey, h.beq_self⟩
  | sequence hxs _ ih =>
    obtain ⟨ks, hks⟩ := exists_forall₂ ih
    have hitems := forall_mem_of_forall₂ hks fun x k hk => hk.2
    refine ⟨_, lookupKey_of_sequence? hxs (hks.imp fun _ _ hk => hk.1), ?_, ?_⟩
    · simpa [canBeKey, allCanBeKeys, sequenceMarker, allCanBeKeys_iff] using
        fun k hk => (hitems k hk).1
    · exact marked_beq_iff.mpr ⟨beq_text_iff.mpr rfl,
        List.forall₂_same.mpr fun k hk => (hitems k hk).2⟩
  | map hkeys hdiffer _ ih =>
    obtain ⟨sorted, hform, hrows⟩ := exists_isMappingForm hkeys hdiffer ih
    refine ⟨_, hform.lookup, ?_, ?_⟩
    · simpa [canBeKey, allCanBeKeys, mappingMarker, allCanBeKeys_iff] using
        fun k hk => (hrows k hk).1
    · exact marked_beq_iff.mpr ⟨beq_text_iff.mpr rfl,
        List.forall₂_same.mpr fun k hk => (hrows k hk).2⟩

/-! ## Equal lookup forms -/

/-- A scalar or a pointer equals no listing and no mapping. -/
theorem IsLeaf.beq_false {v w : Value} (h : v.IsLeaf) (hw : w.sequence?.isSome ∨ w.isMap = true) :
    (v == w) = false ∧ (w == v) = false := by
  cases h with
  | scalar h => cases h <;> cases w <;> simp [sequence?, isMap, entries?] at hw <;> exact ⟨rfl, rfl⟩
  | pointer p => cases w <;> simp [sequence?, isMap, entries?] at hw <;> exact ⟨rfl, rfl⟩

theorem asLists_beq_iff_of_map : ((Value.map es).asLists == (Value.map fs).asLists) = true ↔
    es.length = fs.length ∧ ∀ e ∈ es, ∃ f ∈ fs,
      (e.1 == f.1) = true ∧ (e.2.asLists == f.2.asLists) = true := by
  have hequal : ((Value.map es).asLists == (Value.map fs).asLists) =
      ((entriesAsLists es).length == (entriesAsLists fs).length &&
        entriesIn (entriesAsLists es) (entriesAsLists fs)) := rfl
  rw [hequal, Bool.and_eq_true, beq_iff_eq, entriesIn_iff, entriesAsLists_eq_map,
    entriesAsLists_eq_map]
  simp only [List.length_map, List.mem_map, exists_exists_and_eq_and, forall_exists_index,
    and_imp, forall_apply_eq_imp_iff₂]

/-- Mappings have equal lookup forms when each entry of the one has its like in the other. -/
theorem IsMappingForm.beq_iff {sorted sorted' : List Value} (h : IsMappingForm es sorted)
    (h' : IsMappingForm fs sorted')
    (hvalues : ∀ e ∈ es, ∀ f ∈ fs, ∀ w w', e.2.lookupKey = .ok w → f.2.lookupKey = .ok w' →
      ((w == w') = true ↔ (e.2.asLists == f.2.asLists) = true)) :
    (Value.tuple [mappingMarker, .tuple sorted] == .tuple [mappingMarker, .tuple sorted']) = true ↔
      ((Value.map es).asLists == (Value.map fs).asLists) = true := by
  obtain ⟨rows, hrows, hentries, hperm⟩ := h.entries
  obtain ⟨rows', hrows', hentries', hperm'⟩ := h'.entries
  have hpoints : ∀ x ∈ sorted, ∀ y ∈ sorted', (x == y) = true → entryPoints x = entryPoints y := by
    intro x hx y hy hxy
    obtain ⟨k, w, rfl, hk, -⟩ := hentries.pair x (hperm.subset hx)
    obtain ⟨k', w', rfl, hk', -⟩ := hentries'.pair y (hperm'.subset hy)
    exact (beq_iff_points hk hk' w w').mp (pair_beq_iff.mp hxy).1
  have hlength : sorted.length = sorted'.length ↔ es.length = fs.length := by
    rw [hperm.length_eq, hperm'.length_eq, hrows.length_eq, hrows'.length_eq]
  have hlike : (∀ x ∈ sorted, ∃ y ∈ sorted', (x == y) = true) ↔ ∀ e ∈ es, ∃ f ∈ fs,
      (e.1 == f.1) = true ∧ (e.2.asLists == f.2.asLists) = true := by
    simp only [hperm.mem_iff, hperm'.mem_iff]
    have hleft := (List.forall₂_and_left es rows).mpr ⟨fun e (he : e ∈ es) => he, hrows⟩
    have hright := (List.forall₂_and_left fs rows').mpr ⟨fun f (hf : f ∈ fs) => hf, hrows'⟩
    refine (forall_mem_iff_of_forall₂ hleft fun e r ⟨he, w, hw, hr⟩ =>
      exists_mem_iff_of_forall₂ hright fun f r' ⟨hf, w', hw', hr'⟩ => ?_).symm
    rw [hr, hr', pair_beq_iff, hvalues e he f hf w w' hw hw']
  rw [marked_beq_iff, forall₂_iff_of_rising h.rising h'.rising hpoints, hlength, hlike,
    asLists_beq_iff_of_map]
  exact and_iff_right (beq_text_iff.mpr rfl)

theorem exists_sequenceForm {v k : Value} {xs : List Value} (hv : v.sequence? = some xs)
    (hxs : ∀ x ∈ xs, IsNested x) (hk : v.lookupKey = .ok k) :
    ∃ ks, List.Forall₂ (fun x k => x.lookupKey = .ok k) xs ks ∧
      k = .tuple [sequenceMarker, .tuple ks] := by
  obtain ⟨ks, hks⟩ := exists_forall₂ fun x hx => (hxs x hx).exists_lookupKey
  have hforms := hks.imp fun _ _ h => h.1
  exact ⟨ks, hforms, Except.ok.inj (hk.symm.trans (lookupKey_of_sequence? hv hforms))⟩

theorem exists_mappingForm {k : Value} (hkeys : ∀ e ∈ es, IsText e.1)
    (hdiffer : es.Pairwise fun e f => (e.1 == f.1) = false) (hes : ∀ e ∈ es, IsNested e.2)
    (hk : (Value.map es).lookupKey = .ok k) :
    ∃ sorted, IsMappingForm es sorted ∧ k = .tuple [mappingMarker, .tuple sorted] := by
  obtain ⟨sorted, hform, -⟩ :=
    exists_isMappingForm hkeys hdiffer fun e he => (hes e he).exists_lookupKey
  exact ⟨sorted, hform, Except.ok.inj (hk.symm.trans hform.lookup)⟩

/-- Listings have equal lookup forms when their items do. -/
theorem sequenceForm_beq_iff {xs ys ks ls : List Value}
    (hks : List.Forall₂ (fun x k => x.lookupKey = .ok k) xs ks)
    (hls : List.Forall₂ (fun y l => y.lookupKey = .ok l) ys ls)
    (hitems : ∀ x ∈ xs, ∀ y ∈ ys, ∀ k l, x.lookupKey = .ok k → y.lookupKey = .ok l →
      ((k == l) = true ↔ (x.asLists == y.asLists) = true)) :
    (Value.tuple [sequenceMarker, .tuple ks] == .tuple [sequenceMarker, .tuple ls]) = true ↔
      (Value.list (xs.map asLists) == .list (ys.map asLists)) = true := by
  have hmarker : (sequenceMarker == sequenceMarker) = true := beq_text_iff.mpr rfl
  rw [marked_beq_iff, list_beq_iff, and_iff_right hmarker]
  induction hks generalizing ys ls with
  | nil => cases hls <;> simp
  | cons hk _ ih =>
    cases hls with
    | nil => simp
    | cons hl hls =>
      rw [List.map_cons, List.map_cons, List.forall₂_cons, List.forall₂_cons]
      refine and_congr (hitems _ List.mem_cons_self _ List.mem_cons_self _ _ hk hl)
        (ih hls fun x hx y hy => ?_)
      exact hitems x (List.mem_cons_of_mem _ hx) y (List.mem_cons_of_mem _ hy)

theorem markers_differ : (sequenceMarker == mappingMarker) = false ∧
    (mappingMarker == sequenceMarker) = false := by
  simp [sequenceMarker, mappingMarker, ← Bool.not_eq_true, beq_text_iff, text?]

/-- Lookup forms are equal exactly when the keys are, with tuples read as lists. -/
theorem IsNested.lookupKey_beq_iff {a b k l : Value} (ha : a.IsNested) (hb : b.IsNested)
    (hk : a.lookupKey = .ok k) (hl : b.lookupKey = .ok l) :
    (k == l) = true ↔ (a.asLists == b.asLists) = true := by
  induction ha generalizing b k l with
  | leaf h =>
    obtain rfl := Except.ok.inj (h.lookupKey_eq.symm.trans hk)
    rw [h.asLists_eq]
    cases hb with
    | leaf h' =>
      obtain rfl := Except.ok.inj (h'.lookupKey_eq.symm.trans hl)
      rw [h'.asLists_eq]
    | sequence hys h' =>
      obtain ⟨ls, -, rfl⟩ := exists_sequenceForm hys h' hl
      rw [asLists_of_sequence? hys, (h.beq_false (.inl rfl)).1, (h.beq_false (.inl rfl)).1]
    | map hkeys hdiffer h' =>
      obtain ⟨sorted, -, rfl⟩ := exists_mappingForm hkeys hdiffer h' hl
      rw [asLists, (h.beq_false (.inl rfl)).1, (h.beq_false (.inr rfl)).1]
  | sequence hxs ha ih =>
    obtain ⟨ks, hks, rfl⟩ := exists_sequenceForm hxs ha hk
    rw [asLists_of_sequence? hxs]
    cases hb with
    | leaf h' =>
      obtain rfl := Except.ok.inj (h'.lookupKey_eq.symm.trans hl)
      rw [h'.asLists_eq, (h'.beq_false (.inl rfl)).2, (h'.beq_false (.inl rfl)).2]
    | sequence hys h' =>
      obtain ⟨ls, hls, rfl⟩ := exists_sequenceForm hys h' hl
      rw [asLists_of_sequence? hys]
      exact sequenceForm_beq_iff hks hls fun x hx y hy k l hk hl => ih x hx (h' y hy) hk hl
    | map hkeys hdiffer h' =>
      obtain ⟨sorted, -, rfl⟩ := exists_mappingForm hkeys hdiffer h' hl
      rw [marked_beq_iff, markers_differ.1, asLists]
      exact iff_of_false (by simp) (by nofun)
  | map hkeys hdiffer ha ih =>
    obtain ⟨sorted, hform, rfl⟩ := exists_mappingForm hkeys hdiffer ha hk
    cases hb with
    | leaf h' =>
      obtain rfl := Except.ok.inj (h'.lookupKey_eq.symm.trans hl)
      rw [h'.asLists_eq, asLists, (h'.beq_false (.inl rfl)).2, (h'.beq_false (.inr rfl)).2]
    | sequence hys h' =>
      obtain ⟨ls, -, rfl⟩ := exists_sequenceForm hys h' hl
      rw [marked_beq_iff, markers_differ.2, asLists, asLists_of_sequence? hys]
      exact iff_of_false (by simp) (by nofun)
    | map hkeys' hdiffer' h' =>
      obtain ⟨sorted', hform', rfl⟩ := exists_mappingForm hkeys' hdiffer' h' hl
      exact hform.beq_iff hform' fun e he f hf w w' hw hw' => ih e he (h' f hf) hw hw'

/-- A reserved key equals its text, and still the lookup form of a mapping tells them apart. -/
example : (Value.map [(.tagKey .iso, .null)] == .map [(.text "iso", .null)]) = true ∧
    (Value.map [(.tagKey .iso, .null)]).lookupKey =
      .ok (.tuple [mappingMarker, .tuple [.tuple [.text "WireKey.ISO", .null]]]) :=
  ⟨rfl, by cbv⟩

theorem IsNested.exists_hashedKey {v : Value} (h : v.IsNested) :
    ∃ k, v.hashedKey = .ok k ∧ v.lookupKey = .ok k := by
  obtain ⟨k, hk, hcan, -⟩ := h.exists_lookupKey
  refine ⟨k, ?_, hk⟩
  rw [hashedKey, hk]
  exact if_pos hcan

end Value

end DocQuery
