-- SUMMARY: Groups by date intervals: sort keys and labels are in the order of time.
import DocQuery.Proofs.Group.Entries
import DocQuery.Proofs.Group.Views
import Mathlib.Data.List.Lex

/-!
# Groups by date intervals

The key of an interval has a component for the year and for each smaller part that its unit
names. Intervals are in the order of time when their components are in lexicographic order from
coarse to fine. The store may send the components in any order; they are read in this one.

So two more orders are the order of time. Keys are sorted by their values one after another, and
these are the components. Labels are compared as texts: before a component always stands the same
mark, and a component always fills the same width with digits, so the first component that
differs is where the labels first differ.
-/

namespace DocQuery

open Json (ofPoints_ofText)
open Text (CodePoint)

/-! ## Components -/

/-- The number that a component does not reach. -/
def DateUnit.bound : DateUnit → Nat
  | year => 10000
  | _ => 100

theorem DateUnit.bound_eq (part : DateUnit) : part.bound = 10 ^ Labelling.partWidth part := by
  cases part <;> rfl

theorem DateUnit.name_beq (a b : DateUnit) : (Value.text a.name == .text b.name) = (a == b) := by
  cases a <;> cases b <;> rfl

namespace Value

/-- A component of the key of an interval. -/
def component (es : List (Value × Value)) (part : DateUnit) : Nat :=
  match getD es part.name with
  | .int n => n.toNat
  | _ => 0

/-- The components of the key of an interval, from coarse to fine. -/
def components (unit : DateUnit) : Value → List Nat
  | .map es => unit.keyParts.map (component es)
  | _ => []

/-- A mapping with all components of a unit among its entries. -/
def IsInterval (unit : DateUnit) (es : List (Value × Value)) : Prop :=
  ∀ part ∈ unit.keyParts, ∃ n : Nat, getD es part.name = .int n ∧ n < part.bound

/-- The key with given components and nothing else. -/
def interval (unit : DateUnit) (f : DateUnit → Nat) : Value :=
  .map (unit.keyParts.map fun part => (.text part.name, .int (f part)))

variable {unit : DateUnit} {f g : DateUnit → Nat}

theorem getD_interval {parts : List DateUnit} {part : DateUnit} (h : part ∈ parts) :
    getD (parts.map fun part => (.text part.name, .int (f part))) part.name = .int (f part) := by
  have hfind : Assoc.find? part (parts.map fun part => (part, f part)) = some (f part) := by
    induction parts with
    | nil => cases h
    | cons q parts ih =>
      by_cases hq : q = part
      · simp [Assoc.find?, hq]
      · have htail : part ∈ parts := (List.mem_cons.mp h).resolve_left (Ne.symm hq)
        simpa [Assoc.find?, hq] using ih htail
  have hmap := Assoc.find?_map DateUnit.name_beq (fun n : Nat => Value.int n) part
    (parts.map fun part => (part, f part))
  rw [hfind, List.map_map] at hmap
  exact congrArg (Option.getD · .null) hmap

theorem components_interval : components unit (interval unit f) = unit.keyParts.map f := by
  refine List.map_congr_left fun part hpart => ?_
  rw [component, getD_interval hpart]
  rfl

theorem IsInterval.getD_eq {es : List (Value × Value)} (h : IsInterval unit es) {part : DateUnit}
    (hpart : part ∈ unit.keyParts) :
    getD es part.name = .int (component es part) ∧ component es part < part.bound := by
  obtain ⟨n, hn, hbound⟩ := h part hpart
  have hcomponent : component es part = n := by
    rw [component, hn]
    rfl
  rw [hcomponent]
  exact ⟨hn, hbound⟩

/-- Keys of intervals are equal when their components are. -/
theorem interval_beq_iff :
    (interval unit f == interval unit g) = true ↔ unit.keyParts.map f = unit.keyParts.map g := by
  have hint : ∀ m n : Nat, (Value.int m == .int n) = true ↔ m = n := by
    intro m n
    rw [(comparesAs_of_int rfl rfl).equal, beq_iff_eq, Std.compare_eq_iff_eq, Int.ofNat_inj]
  show (_ == _ && entriesIn _ _) = true ↔ _
  rw [Bool.and_eq_true, entriesIn_iff, List.map_inj_left]
  constructor
  · rintro ⟨-, h⟩ part hpart
    obtain ⟨_, hmem, hname, hvalue⟩ := h _ (List.mem_map_of_mem hpart)
    obtain ⟨part', -, rfl⟩ := List.mem_map.mp hmem
    rw [DateUnit.name_beq, beq_iff_eq] at hname
    subst hname
    exact (hint _ _).mp hvalue
  · refine fun h => ⟨by simp, List.forall_mem_map.mpr fun part hpart => ?_⟩
    exact ⟨_, List.mem_map_of_mem hpart, by simp [DateUnit.name_beq], (hint _ _).mpr (h part hpart)⟩

/-! ## Sort keys -/

theorem ofEntries_interval (parts : List DateUnit) :
    SortKey.ofEntries (parts.map fun part => (.text part.name, .int (f part))) =
      (parts.map f).map fun n : Nat => .number (.int n) := by
  induction parts with
  | nil => rfl
  | cons part parts ih => rw [List.map_cons, SortKey.ofEntries, ih]; rfl

theorem compareItems?_numbers (ms ns : List Nat) :
    SortKey.compareItems? (ms.map fun n : Nat => .number (.int n))
      (ns.map fun n : Nat => .number (.int n)) = some (compare ms ns) := by
  induction ms generalizing ns with
  | nil => cases ns <;> rfl
  | cons m ms ih =>
    cases ns with
    | nil => rfl
    | cons n ns =>
      have hhead : (SortKey.number (.int m)).compare? (.number (.int n)) = some (compare m n) :=
        congrArg some (SortKey.compare_natCast m n)
      rw [List.map_cons, List.map_cons, SortKey.compareItems?, hhead, ih, List.compare_cons_cons]
      cases compare m n <;> rfl

/-- Keys are sorted by their components. -/
theorem less_interval_iff : (SortKey.ofValue (interval unit f)).less
    (SortKey.ofValue (interval unit g)) = true ↔
      unit.keyParts.map f < unit.keyParts.map g := by
  have hkeys : (SortKey.ofValue (interval unit f)).compare? (SortKey.ofValue (interval unit g)) =
      some (compare (unit.keyParts.map f) (unit.keyParts.map g)) := by
    show SortKey.compareItems? (SortKey.ofEntries _) (SortKey.ofEntries _) = _
    rw [ofEntries_interval, ofEntries_interval, compareItems?_numbers]
  rw [SortKey.less, hkeys, beq_iff_eq, Option.some.injEq, SortKey.compare_lists_eq_lt_iff]

theorem isSortable_interval : (interval unit f).IsSortable :=
  .map (List.forall_mem_map.mpr fun part _ => .int (f part))

end Value

/-! ## Labels -/

namespace Labelling

variable {unit : DateUnit} {f g : DateUnit → Nat}

/-- Components in a label, each behind its mark. -/
def partsText (f : DateUnit → Nat) (parts : List DateUnit) : List Char :=
  parts.flatMap fun part => (partLead part).toList ++ Decimal.padded (partWidth part) (f part)

theorem partText_int {part : DateUnit} {n : Nat} (hn : n < part.bound) :
    partText part (.int n) = .ok (String.ofList (Decimal.padded (partWidth part) n)) := by
  have hwidth : 0 < partWidth part ∧ partWidth part ≤ Whole.maxDigits := by
    cases part <;> decide
  have hdigits : (Value.int n).digits ≤ Whole.maxDigits :=
    ((Value.digits_int_le_iff hwidth.1 n).mpr (part.bound_eq ▸ hn)).trans hwidth.2
  have hpadded : paddedInt (partWidth part) n =
      String.ofList (Decimal.padded (partWidth part) n) :=
    if_neg (Int.not_lt.mpr (Int.natCast_nonneg n))
  rw [← hpadded]
  cases n with
  | zero => rfl
  | succ n => exact Value.whenWritable_of_le hdigits _

/-- The text of an interval. -/
def intervalText (unit : DateUnit) (f : DateUnit → Nat) : String :=
  String.ofList (partsText f unit.keyParts ++ (unitTail unit).toList)

theorem label_interval (hf : ∀ part ∈ unit.keyParts, f part < part.bound) :
    label (.byInterval unit) (Value.interval unit f) = .ok (intervalText unit f) := by
  have hgiven : ∀ s : Except Error String,
      (if (unit.keyParts.map fun part => (Value.text part.name, Value.int (f part))).all
        (isNull ·.2) then .ok (keyLabel .null) else s) = s := by
    cases unit <;> exact fun _ => rfl
  have htexts : (unit.keyParts.mapM fun part : DateUnit => do
      let s ← partText part (Value.getD
        (unit.keyParts.map fun q : DateUnit => (.text q.name, .int (f q))) part.name)
      (.ok (partLead part ++ s) : Except Error String)) = .ok (unit.keyParts.map fun part =>
        partLead part ++ String.ofList (Decimal.padded (partWidth part) (f part))) := by
    rw [mapM_eq_ok_iff, List.forall₂_map_right_iff, List.forall₂_same]
    intro part hpart
    rw [Value.getD_interval hpart, partText_int (hf part hpart)]
    rfl
  refine (hgiven _).trans ?_
  rw [intervalLabel, htexts]
  refine congrArg Except.ok (String.toList_inj.mp ?_)
  rw [String.toList_append, String.toList_join, intervalText, String.toList_ofList, partsText,
    List.flatMap_map]
  simp

/-- The first component that differs is where the labels first differ. -/
theorem partsText_lt_iff {parts : List DateUnit} (hf : ∀ part ∈ parts, f part < part.bound)
    (hg : ∀ part ∈ parts, g part < part.bound) (tail : List Char) :
    partsText f parts ++ tail < partsText g parts ++ tail ↔ parts.map f < parts.map g := by
  induction parts with
  | nil => simp [partsText]
  | cons part parts ih =>
    obtain ⟨hfhead, hftail⟩ := List.forall_mem_cons.mp hf
    obtain ⟨hghead, hgtail⟩ := List.forall_mem_cons.mp hg
    rw [DateUnit.bound_eq] at hfhead hghead
    have hwidth : 0 < partWidth part := by cases part <;> decide
    simp only [partsText, List.flatMap_cons, List.append_assoc] at ih ⊢
    rw [Decimal.append_lt_append_iff rfl, Decimal.padded_append_lt_append_iff hwidth hfhead hghead,
      ih hftail hgtail, List.map_cons, List.map_cons, List.cons_lt_cons_iff]
    simp

theorem intervalText_congr (h : unit.keyParts.map f = unit.keyParts.map g) :
    intervalText unit f = intervalText unit g := by
  have hparts : partsText f unit.keyParts = partsText g unit.keyParts :=
    List.flatMap_congr fun part hpart => by rw [List.map_inj_left.mp h part hpart]
  rw [intervalText, intervalText, hparts]

theorem intervalText_lt_iff (hf : ∀ part ∈ unit.keyParts, f part < part.bound)
    (hg : ∀ part ∈ unit.keyParts, g part < part.bound) :
    intervalText unit f < intervalText unit g ↔ unit.keyParts.map f < unit.keyParts.map g := by
  rw [String.lt_iff, intervalText, intervalText, String.toList_ofList, String.toList_ofList,
    partsText_lt_iff hf hg]

theorem intervalText_eq_iff (hf : ∀ part ∈ unit.keyParts, f part < part.bound)
    (hg : ∀ part ∈ unit.keyParts, g part < part.bound) :
    intervalText unit f = intervalText unit g ↔ unit.keyParts.map f = unit.keyParts.map g := by
  refine ⟨fun h => ?_, intervalText_congr⟩
  have hnlt := mt (intervalText_lt_iff hf hg).mpr (h ▸ String.lt_irrefl _)
  have hngt := mt (intervalText_lt_iff hg hf).mpr (h ▸ String.lt_irrefl _)
  exact le_antisymm (not_lt.mp hngt) (not_lt.mp hnlt)

end Labelling

/-! ## Results in the order of time -/

namespace GroupResult

open Value (components interval)

/-- The groups are in the order of time wherever they are put in order. The view by rising keys has
    them so; keys are equal when they agree on all components, and so are their labels; and texts
    that are labels are ordered as the components. So the entries have one item for each key. -/
structure IsChronological (unit : DateUnit) (r : GroupResult) : Prop where
  perm : (r.sorted .key .ascending).Perm r.toPairs
  view : (r.sorted .key .ascending).Pairwise fun p q => components unit p.1 ≤ components unit q.1
  equal : ∀ a ∈ r.keys, ∀ b ∈ r.keys, (a == b) = true ↔ components unit a = components unit b
  labels : ∃ label : Value → String, (∀ key ∈ r.keys, r.label key = .ok (label key)) ∧
    (∀ a ∈ r.keys, ∀ b ∈ r.keys, (label a = label b ↔ components unit a = components unit b) ∧
      (label a < label b ↔ components unit a < components unit b)) ∧
    ∀ keys ⊆ r.keys, (keys.map label).Pairwise (· ≤ ·) ↔
      (keys.map (components unit)).Pairwise (· ≤ ·)
  entries : ∃ es, r.toEntries = .ok es ∧ es.length = r.keys.eraseDups.length

variable {unit : DateUnit} {r : GroupResult}

/-- All keys of the result are intervals of a unit. -/
def HasIntervals (unit : DateUnit) (r : GroupResult) : Prop :=
  ∀ key ∈ r.keys, ∃ f, key = interval unit f ∧ ∀ part ∈ unit.keyParts, f part < part.bound

/-- The text of the interval that a key stands for. -/
def labelText (unit : DateUnit) : Value → String
  | .map es => Labelling.intervalText unit (Value.component es)
  | _ => ""

theorem labelText_interval (f : DateUnit → Nat) :
    labelText unit (interval unit f) = Labelling.intervalText unit f :=
  Labelling.intervalText_congr Value.components_interval

/-- The code points of this text. -/
def intervalPoints (unit : DateUnit) (key : Value) : List CodePoint :=
  CodePoint.ofText (labelText unit key)

namespace HasIntervals

variable {a b : Value}

theorem label_eq (h : r.HasIntervals unit)
    (hlabelling : r.labelling = some (Labelling.byInterval unit).label) (ha : a ∈ r.keys) :
    r.label a = .ok (labelText unit a) := by
  obtain ⟨f, rfl, hf⟩ := h a ha
  rw [label, hlabelling, labelText_interval]
  exact Labelling.label_interval hf

theorem beq_iff (h : r.HasIntervals unit) (ha : a ∈ r.keys) (hb : b ∈ r.keys) :
    (a == b) = true ↔ components unit a = components unit b := by
  obtain ⟨f, rfl, -⟩ := h a ha
  obtain ⟨g, rfl, -⟩ := h b hb
  rw [Value.interval_beq_iff, Value.components_interval, Value.components_interval]

theorem less_iff (h : r.HasIntervals unit) (ha : a ∈ r.keys) (hb : b ∈ r.keys) :
    (SortKey.ofValue a).less (SortKey.ofValue b) = true ↔
      components unit a < components unit b := by
  obtain ⟨f, rfl, -⟩ := h a ha
  obtain ⟨g, rfl, -⟩ := h b hb
  rw [Value.less_interval_iff, Value.components_interval, Value.components_interval]

theorem labelText_iff (h : r.HasIntervals unit) (ha : a ∈ r.keys) (hb : b ∈ r.keys) :
    (labelText unit a = labelText unit b ↔ components unit a = components unit b) ∧
      (labelText unit a < labelText unit b ↔ components unit a < components unit b) := by
  obtain ⟨f, rfl, hf⟩ := h a ha
  obtain ⟨g, rfl, hg⟩ := h b hb
  rw [labelText_interval, labelText_interval, Value.components_interval,
    Value.components_interval]
  exact ⟨Labelling.intervalText_eq_iff hf hg, Labelling.intervalText_lt_iff hf hg⟩

theorem view_pairwise (h : r.HasIntervals unit) :
    (r.sorted .key .ascending).Perm r.toPairs ∧ (r.sorted .key .ascending).Pairwise fun p q =>
      components unit p.1 ≤ components unit q.1 := by
  have hmem : ∀ p ∈ r.toPairs, p.1 ∈ r.keys := by
    intro p hp
    obtain ⟨g, hg, rfl⟩ := List.mem_map.mp hp
    exact List.mem_map_of_mem hg
  have hsortable : ∀ p ∈ r.toPairs, (SortedBy.key.of p).IsSortable := by
    intro p hp
    obtain ⟨f, hf, -⟩ := h p.1 (hmem p hp)
    show p.1.IsSortable
    rw [hf]
    exact Value.isSortable_interval
  have hsorts := Sorting.sort_sorts (orders .key) hsortable
  refine ⟨hsorts.keeps.perm, hsorts.rises.imp_of_mem fun {p q} hp hq hless => ?_⟩
  have hp' := hmem p (hsorts.keeps.perm.mem_iff.mp hp)
  have hq' := hmem q (hsorts.keeps.perm.mem_iff.mp hq)
  refine not_lt.mp fun hlt => ?_
  have htrue : SortedBy.key.less q p = true := (h.less_iff hq' hp').mpr hlt
  rw [hless] at htrue
  cases htrue

theorem labels_pairwise_iff (h : r.HasIntervals unit) {keys : List Value} (hkeys : keys ⊆ r.keys) :
    (keys.map (labelText unit)).Pairwise (· ≤ ·) ↔
      (keys.map (components unit)).Pairwise (· ≤ ·) := by
  rw [List.pairwise_map, List.pairwise_map]
  refine List.Pairwise.iff_of_mem fun {a b} ha hb => ?_
  rw [← String.not_lt, ← not_lt (a := components unit b), (h.labelText_iff (hkeys hb) (hkeys ha)).2]

theorem exists_entries (h : r.HasIntervals unit)
    (hlabelling : r.labelling = some (Labelling.byInterval unit).label) :
    ∃ es, r.toEntries = .ok es ∧ es.length = r.keys.eraseDups.length := by
  have hkeys : ∀ x ∈ r.groups,
      r.entryKey x.1 x.2.key = .ok (.ofPoints (intervalPoints unit x.2.key)) := by
    intro x hx
    have hmem : x.2.key ∈ r.keys := List.mem_map_of_mem (List.mem_map_of_mem hx)
    obtain ⟨f, hf, -⟩ := h _ hmem
    have hlabel := h.label_eq hlabelling hmem
    obtain ⟨groups, labelling⟩ := r
    obtain rfl : labelling = _ := hlabelling
    rw [hf] at hlabel ⊢
    rw [intervalPoints, ofPoints_ofText]
    exact congrArg (Except.map Value.text) hlabel
  have hsame : ∀ a ∈ r.keys, ∀ b ∈ r.keys,
      (intervalPoints unit a == intervalPoints unit b) = (a == b) := by
    intro a ha b hb
    rw [Bool.eq_iff_iff, beq_iff_eq, intervalPoints, intervalPoints,
      CodePoint.ofText_injective.eq_iff, (h.labelText_iff ha hb).1, h.beq_iff ha hb]
  refine ⟨_, toEntries_eq (intervalPoints unit) hkeys, ?_⟩
  rw [List.length_map, ← Assoc.length_keys, Assoc.keys_ofPairs, keys_labelled,
    eraseDups_map hsame, List.length_map]

end HasIntervals

theorem HasIntervals.isChronological (h : r.HasIntervals unit)
    (hlabelling : r.labelling = some (Labelling.byInterval unit).label) :
    r.IsChronological unit where
  perm := h.view_pairwise.1
  view := h.view_pairwise.2
  equal _ ha _ hb := h.beq_iff ha hb
  labels := ⟨labelText unit, fun _ hkey => h.label_eq hlabelling hkey,
    fun _ ha _ hb => h.labelText_iff ha hb, fun _ hkeys => h.labels_pairwise_iff hkeys⟩
  entries := h.exists_entries hlabelling

end GroupResult

namespace GroupPlan

open Value (components)

/-- The row of a group whose key is an interval, and whose collected rows can be read. -/
structure IsIntervalRow (p : DatePlan) (className : Value) (row : List (Value × Value)) : Prop where
  key : ∃ es, Value.getD row "key" = .map es ∧ Value.IsInterval p.unit es
  members : ∃ ms, (byDate p).decodeMembers className (Value.getD row "members") = .ok ms

/-- The group has the components and the count of the row. -/
def IsGroupOf (unit : DateUnit) (row : List (Value × Value)) (g : Group) : Prop :=
  components unit g.key = components unit (Value.getD row "key") ∧
    g.count = Value.getD row "count"

theorem IsIntervalRow.exists_group {p : DatePlan} {className : Value}
    {row : List (Value × Value)} (h : IsIntervalRow p className row) :
    ∃ g : Group, (byDate p).decodeRow className (.map row) = .ok g ∧ IsGroupOf p.unit row g ∧
      ∃ f, g.key = Value.interval p.unit f ∧ ∀ part ∈ p.unit.keyParts, f part < part.bound := by
  obtain ⟨es, hkey, hes⟩ := h.key
  obtain ⟨ms, hms⟩ := h.members
  have hdecode : (byDate p).decodeKey (.map es) =
      .ok (Value.interval p.unit (Value.component es)) := by
    rw [decodeKey, Value.object, List.map_map]
    exact congrArg (fun es => Except.ok (Value.map es)) (List.map_congr_left fun part hpart =>
      congrArg (Value.text part.name, ·) (hes.getD_eq hpart).1)
  refine ⟨⟨Value.interval p.unit (Value.component es), Value.getD row "count", ms⟩, ?_, ⟨?_, rfl⟩,
    _, rfl, fun part hpart => (hes.getD_eq hpart).2⟩
  · show (byDate p).decodeKey (Value.getD row "key") >>= _ = _
    rw [hkey, hdecode]
    show (byDate p).decodeMembers className (Value.getD row "members") >>= _ = _
    rw [hms]
    rfl
  · rw [hkey, Value.components_interval]
    rfl

theorem exists_hashedKey_interval (unit : DateUnit) (f : DateUnit → Nat) :
    ∃ k, (Value.interval unit f).hashedKey = .ok k := by
  have hdiffer : unit.keyParts.Pairwise (· ≠ ·) := by cases unit <;> decide
  have hnested : (Value.interval unit f).IsNested :=
    .map (List.forall_mem_map.mpr fun part _ => .text part.name)
      (List.pairwise_map.mpr (hdiffer.imp fun hne => by
        rwa [DateUnit.name_beq, beq_eq_false_iff_ne]))
      (List.forall_mem_map.mpr fun part _ => .leaf (.scalar (.int (f part))))
  exact hnested.exists_hashedKey.imp fun _ hk => hk.1

end GroupPlan

end DocQuery
