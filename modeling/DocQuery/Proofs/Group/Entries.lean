-- SUMMARY: The entries of a grouped result: one for each label, with the count of the last group under it.
import DocQuery.Proofs.Assoc
import DocQuery.Proofs.Group.Rows
import DocQuery.Proofs.Json.Data
import DocQuery.Proofs.Number.DigitOrder
import DocQuery.Proofs.Value.Digits

/-!
# Entries of grouped results

A result becomes a mapping from labels to counts. A label is a row of code points, and labels
are equal when their rows are. So the mapping has one entry for each label, and of the groups
with one label the last one's count stays. A number that is too long for a text has no label, and
then there is no mapping.

Groups are told apart by their keys, not by their labels. The labels of different nulls, truth
values and numbers differ, and a text is its own label. But a text may be the label of a key that
is no text: `null`, `True`, `42`. With such a pair of keys a group is lost, and without one none.
-/

namespace DocQuery

open Json (ofPoints_beq ofPoints_ofText ofPoints_points)
open Text (CodePoint)

/-! ## Repeated items -/

/-- Where items are equal just as their images are, repeated ones may be left out before or after
    the items are mapped. -/
theorem eraseDups_map {α β : Type} [BEq α] [BEq β] {f : α → β} : ∀ {xs : List α},
    (∀ a ∈ xs, ∀ b ∈ xs, (f a == f b) = (a == b)) → (xs.map f).eraseDups = xs.eraseDups.map f
  | [], _ => rfl
  | x :: xs, h => by
    have hsame : (xs.map f).filter (fun b => !b == f x) = (xs.filter fun a => !a == x).map f := by
      rw [List.filter_map]
      congr 1
      refine List.filter_congr fun a ha => ?_
      rw [Function.comp_apply, h a (List.mem_cons_of_mem x ha) x List.mem_cons_self]
    have hrest : ∀ a ∈ xs.filter fun a => !a == x, ∀ b ∈ xs.filter fun a => !a == x,
        (f a == f b) = (a == b) := fun a ha b hb =>
      h a (List.mem_cons_of_mem x (List.mem_of_mem_filter ha)) b
        (List.mem_cons_of_mem x (List.mem_of_mem_filter hb))
    rw [List.map_cons, List.eraseDups_cons, List.eraseDups_cons, hsame, eraseDups_map hrest,
      List.map_cons]
termination_by xs => xs.length
decreasing_by exact Nat.lt_succ_of_le (List.length_filter_le _ xs)

/-! ## Entries by labels -/

namespace GroupResult

variable {r : GroupResult} (points : Value → List CodePoint)

/-- The counts behind the labels of their keys, in order. -/
def labelled (r : GroupResult) (points : Value → List CodePoint) :
    List (List CodePoint × Value) :=
  r.toGroups.map fun g => (points g.key, g.count)

theorem keys_labelled : Assoc.keys (r.labelled points) = r.keys.map points := by
  simp [Assoc.keys, labelled, keys]

theorem values_labelled : (r.labelled points).map (·.2) = r.counts := by
  simp [labelled, counts]

/-- The entries are the counts under their labels, with repeated labels joined. -/
theorem toEntries_eq
    (h : ∀ x ∈ r.groups, r.entryKey x.1 x.2.key = .ok (.ofPoints (points x.2.key))) :
    r.toEntries = .ok ((Assoc.ofPairs (r.labelled points)).map fun e => (.ofPoints e.1, e.2)) := by
  have hentries : (r.groups.mapM fun x => do
      let k ← r.entryKey x.1 x.2.key
      (.ok (k, x.2.count) : Except Error (Value × Value))) =
      .ok ((r.labelled points).map fun e => (.ofPoints e.1, id e.2)) := by
    rw [labelled, toGroups, List.map_map, List.map_map, mapM_eq_ok_iff,
      List.forall₂_map_right_iff, List.forall₂_same]
    intro x hx
    show r.entryKey x.1 x.2.key >>= _ = _
    rw [h x hx]
    rfl
  refine (congrArg (· >>= fun es => .ok (Assoc.ofPairs es)) hentries).trans ?_
  exact congrArg Except.ok (Assoc.ofPairs_map ofPoints_beq id _)

end GroupResult

/-! ## Labels of scalars -/

namespace Value

/-- A null, a truth value, a whole number or a text, broken or not. -/
inductive IsScalarKey : Value → Prop
  | null : IsScalarKey .null
  | bool (b : Bool) : IsScalarKey (.bool b)
  | int (n : Int) : IsScalarKey (.int n)
  | text {v : Value} (h : v.IsText) : IsScalarKey v

/-- The code points of the label of a key. -/
def labelPoints : Value → List CodePoint
  | .brokenText t => t.points
  | v => CodePoint.ofText (Labelling.keyLabel v)

theorem IsScalarKey.isScalar {v : Value} (h : v.IsScalarKey) : v.IsScalar := by
  cases h with
  | null => exact .null
  | bool b => exact .bool b
  | int n => exact .int n
  | text h => cases h <;> constructor

theorem IsScalarKey.exists_hashedKey {v : Value} (h : v.IsScalarKey) :
    ∃ k, v.hashedKey = .ok k :=
  (IsNested.leaf (.scalar h.isScalar)).exists_hashedKey.imp fun _ hk => hk.1

/-- The label of a key that is no text is its display. -/
theorem labelPoints_of_not_isText {v : Value} (h : ¬ v.IsText) :
    v.labelPoints = CodePoint.ofText (Labelling.keyLabel v) := by
  cases v with
  | brokenText t => exact absurd (.brokenText t) h
  | _ => rfl

/-- A text is its own label. -/
theorem IsText.ofPoints_labelPoints {v : Value} (h : v.IsText) : .ofPoints v.labelPoints = v := by
  cases h with
  | text s => exact ofPoints_ofText s
  | brokenText t => exact ofPoints_points t

theorem intText_injective : Function.Injective Json.intText := by
  have hmark : ∀ m n : Nat, Decimal.natText m ≠ '-' :: Decimal.natText n := by
    intro m n h
    have hmem : '-' ∈ Decimal.natText m := h ▸ List.mem_cons_self
    exact absurd (Decimal.isDigit_of_mem_natText hmem) (by decide)
  intro m n h
  cases m with
  | ofNat m =>
    cases n with
    | ofNat n => rw [Decimal.natText_inj.mp h]
    | negSucc n => exact absurd h (hmark _ _)
  | negSucc m =>
    cases n with
    | ofNat n => exact absurd h.symm (hmark _ _)
    | negSucc n => rw [Nat.succ.inj (Decimal.natText_inj.mp (List.cons.inj h).2)]

/-- Keys that are no texts have one label only if they are equal. -/
theorem IsScalarKey.beq_of_keyLabel_eq {a b : Value} (ha : a.IsScalarKey) (hb : b.IsScalarKey)
    (hatext : ¬ a.IsText) (hbtext : ¬ b.IsText)
    (h : Labelling.keyLabel a = Labelling.keyLabel b) : (a == b) = true := by
  -- The label of a number has no letter in it.
  have hint : ∀ (n : Int) {s : String} (c : Char), c ∈ s.toList → c ≠ '-' → c.isDigit = false →
      (Number.int n).text ≠ s := by
    rintro n _ c hc hmark hdigit rfl
    have hmem : c ∈ Json.intText n := by rwa [← Json.toList_number]
    rcases Json.mem_intText c hmem with rfl | hc
    · exact hmark rfl
    · rw [hdigit] at hc
      cases hc
  have hbool : ∀ (n : Int) (b : Bool), (Number.int n).text ≠ Labelling.keyLabel (.bool b) := by
    intro n b
    cases b
    · exact hint n 'F' (by decide) (by decide) (by decide)
    · exact hint n 'T' (by decide) (by decide) (by decide)
  have hnull : ∀ n : Int, (Number.int n).text ≠ Labelling.keyLabel .null := fun n =>
    hint n 'n' (by decide) (by decide) (by decide)
  cases ha with
  | text ha => exact absurd ha hatext
  | null =>
    cases hb with
    | text hb => exact absurd hb hbtext
    | null => rfl
    | bool b => cases b <;> exact absurd h (by decide)
    | int n => exact absurd h.symm (hnull n)
  | bool a =>
    cases hb with
    | text hb => exact absurd hb hbtext
    | null => cases a <;> exact absurd h (by decide)
    | bool b => cases a <;> cases b <;> first | rfl | exact absurd h (by decide)
    | int n => exact absurd h.symm (hbool n a)
  | int m =>
    cases hb with
    | text hb => exact absurd hb hbtext
    | null => exact absurd h (hnull m)
    | bool b => exact absurd h (hbool m b)
    | int n =>
      have hmn : m = n := intText_injective (by
        rw [← Json.toList_number, ← Json.toList_number]
        exact congrArg String.toList h)
      rw [hmn]
      exact IsScalar.beq_self (.int n)

/-- No text among the keys is the label of a key that is no text. -/
def LabelsApart (keys : List Value) : Prop :=
  ∀ s : String, .text s ∈ keys → ∀ w ∈ keys, ¬ w.IsText → Labelling.keyLabel w ≠ s

/-- Different scalars have different labels exactly when the texts among them keep apart from
    the labels of the others. -/
theorem nodup_labelPoints_iff {keys : List Value} (hkeys : ∀ v ∈ keys, v.IsScalarKey)
    (hdiffer : keys.Pairwise fun a b => (a == b) = false) :
    (keys.map labelPoints).Nodup ↔ LabelsApart keys := by
  constructor
  · intro hnodup s hs w hw hwtext hlabel
    have hpoints : labelPoints (.text s) = w.labelPoints := by
      rw [labelPoints_of_not_isText hwtext, hlabel]
      rfl
    exact hwtext (List.inj_on_of_nodup_map hnodup hs hw hpoints ▸ .text s)
  · intro hapart
    -- A text and a key that is no text, in whatever order they stand.
    have hmixed : ∀ a ∈ keys, ∀ b ∈ keys, a.IsText → ¬ b.IsText →
        a.labelPoints ≠ b.labelPoints := by
      intro a ha b hb hatext hbtext heq
      rw [labelPoints_of_not_isText hbtext] at heq
      cases hatext with
      | text s => exact hapart s ha b hb hbtext (CodePoint.ofText_injective heq).symm
      | brokenText t => exact CodePoint.ofText_ne_points _ t heq.symm
    refine List.pairwise_map.mpr (hdiffer.imp_of_mem fun {a b} ha hb hab heq => ?_)
    by_cases hatext : a.IsText <;> by_cases hbtext : b.IsText
    · have hsame : a = b := by
        rw [← hatext.ofPoints_labelPoints, heq, hbtext.ofPoints_labelPoints]
      rw [hsame, IsScalar.beq_self (hkeys b hb).isScalar] at hab
      cases hab
    · exact hmixed a ha b hb hatext hbtext heq
    · exact hmixed b hb a ha hbtext hatext heq.symm
    · rw [labelPoints_of_not_isText hatext, labelPoints_of_not_isText hbtext] at heq
      have hlabel := CodePoint.ofText_injective heq
      rw [(hkeys a ha).beq_of_keyLabel_eq (hkeys b hb) hatext hbtext hlabel] at hab
      cases hab

end Value

/-! ## Entries by scalar keys -/

namespace GroupResult

open Value (labelPoints)

/-- There is one entry for each label, in the order of the groups, and it has the count of the last
    group with the label. Where the keys are different, each group has an entry of its own exactly
    when no text is the label of a key that is no text; and so with the counts. -/
structure HasEntries (r : GroupResult) (entries : List (Value × Value)) : Prop where
  labels : Assoc.keys entries = (r.keys.map fun k => .ofPoints (labelPoints k)).eraseDups
  last : ∀ before g after, r.toGroups = before ++ g :: after →
    (∀ g' ∈ after, labelPoints g'.key ≠ labelPoints g.key) →
      Assoc.find? (.ofPoints (labelPoints g.key)) entries = some g.count
  length : (r.keys.Pairwise fun a b => (a == b) = false) →
    (entries.length = r.size ↔ Value.LabelsApart r.keys)
  counts : (r.keys.Pairwise fun a b => (a == b) = false) →
    ((entries.map (·.2)).Perm r.counts ↔ Value.LabelsApart r.keys)

variable {r : GroupResult}

/-- A key stands under its label, if it has one. -/
theorem entryKey_of_byKey (h : r.labelling = some Labelling.byKey.label) (lookup key : Value) :
    r.entryKey lookup key = key.whenWritable (.ofPoints (labelPoints key)) := by
  obtain ⟨groups, labelling⟩ := r
  obtain rfl : labelling = _ := h
  cases key with
  | brokenText t => exact congrArg Except.ok (ofPoints_points t).symm
  | _ =>
    simp only [entryKey, Labelling.label, Value.map_whenWritable, labelPoints, ofPoints_ofText]

theorem toEntries_of_byKey (h : r.labelling = some Labelling.byKey.label)
    (hdigits : ∀ key ∈ r.keys, key.digits ≤ Whole.maxDigits) :
    r.toEntries = .ok ((Assoc.ofPairs (r.labelled labelPoints)).map fun e =>
      (.ofPoints e.1, e.2)) := by
  refine toEntries_eq labelPoints fun x hx => ?_
  have hkey := hdigits x.2.key (List.mem_map_of_mem (List.mem_map_of_mem hx))
  rw [entryKey_of_byKey h, Value.whenWritable_of_le hkey]

/-- One key without a label is enough for there to be no entries. -/
theorem toEntries_of_lt (h : r.labelling = some Labelling.byKey.label)
    (hlong : ∃ key ∈ r.keys, Whole.maxDigits < key.digits) :
    r.toEntries = .error (.argument .intTooLong) := by
  have hentry : ∀ x ∈ r.groups, (do
      let k ← r.entryKey x.1 x.2.key
      (.ok (k, x.2.count) : Except Error (Value × Value))) =
      x.2.key.whenWritable (.ofPoints (labelPoints x.2.key), x.2.count) := by
    intro x _
    rw [entryKey_of_byKey h]
    exact Value.map_whenWritable ..
  have hrefused : ∃ x ∈ r.groups, Whole.maxDigits < x.2.key.digits := by
    simpa [keys, toGroups] using hlong
  refine (congrArg (· >>= fun es => .ok (Assoc.ofPairs es)) (mapM_congr hentry)).trans ?_
  rw [Value.mapM_whenWritable_of_lt _ hrefused]
  rfl

theorem size_eq : r.size = (r.labelled labelPoints).length := by
  simp [size, labelled, toGroups]

/-- The entries of a result with scalar keys. -/
theorem hasEntries_of_isScalarKey (hkeys : ∀ v ∈ r.keys, v.IsScalarKey) :
    r.HasEntries ((Assoc.ofPairs (r.labelled labelPoints)).map fun e => (.ofPoints e.1, e.2)) where
  labels := by
    have heq : ∀ ks : List (List CodePoint),
        (ks.map Value.ofPoints).eraseDups = ks.eraseDups.map .ofPoints := fun ks =>
      eraseDups_map fun ps _ qs _ => ofPoints_beq ps qs
    show _ = (r.keys.map (Value.ofPoints ∘ labelPoints)).eraseDups
    rw [← List.map_map, heq, ← keys_labelled, ← Assoc.keys_ofPairs]
    simp [Assoc.keys]
  last before g after hgroups hlast := by
    have hlabelled : r.labelled labelPoints =
        before.map (fun g => (labelPoints g.key, g.count)) ++ (labelPoints g.key, g.count) ::
          after.map fun g => (labelPoints g.key, g.count) := by
      rw [labelled, hgroups, List.map_append, List.map_cons]
    have hafter : Assoc.find? (labelPoints g.key)
        (after.map fun g => (labelPoints g.key, g.count)).reverse = none := by
      rw [Assoc.find?_eq_none_iff]
      simpa [Assoc.keys] using hlast
    refine (Assoc.find?_map ofPoints_beq id _ _).trans ?_
    rw [Assoc.find?_ofPairs, hlabelled, List.reverse_append, List.reverse_cons,
      Assoc.find?_append, Assoc.find?_append, hafter]
    simp [Assoc.find?]
  length hdiffer := by
    rw [← Value.nodup_labelPoints_iff hkeys hdiffer, ← keys_labelled, List.length_map, size_eq]
    exact Assoc.length_ofPairs_eq_iff
  counts hdiffer := by
    rw [← Value.nodup_labelPoints_iff hkeys hdiffer, ← keys_labelled,
      ← values_labelled labelPoints]
    refine ⟨fun h => ?_, fun h => ?_⟩
    · refine Assoc.length_ofPairs_eq_iff.mp ?_
      simpa using h.length_eq
    · rw [Assoc.ofPairs_of_nodup h, List.map_map]
      exact .refl _

end GroupResult

namespace GroupPlan

/-- The row of a group with a scalar key, whose collected rows can be read. -/
structure IsScalarRow (p : FieldPlan) (className : Value) (es : List (Value × Value)) : Prop where
  key : (Value.getD es "key").IsScalarKey
  members : ∃ ms, (byField p).decodeMembers className (Value.getD es "members") = .ok ms

theorem decodeKey_of_not_pointer {p : FieldPlan} (hpointer : p.pointer = false) (key : Value) :
    (byField p).decodeKey key = .ok key := by
  cases key <;> simp [decodeKey, hpointer]

theorem IsScalarRow.exists_group {p : FieldPlan} {className : Value} {es : List (Value × Value)}
    (h : IsScalarRow p className es) (hpointer : p.pointer = false) :
    ∃ g : Group, (byField p).decodeRow className (.map es) = .ok g ∧
      g.pair = (Value.getD es "key", Value.getD es "count") ∧ g.key.IsScalarKey := by
  obtain ⟨ms, hms⟩ := h.members
  refine ⟨⟨Value.getD es "key", Value.getD es "count", ms⟩, ?_, rfl, h.key⟩
  show (byField p).decodeKey (Value.getD es "key") >>= _ = _
  rw [decodeKey_of_not_pointer hpointer]
  show (byField p).decodeMembers className (Value.getD es "members") >>= _ = _
  rw [hms]
  rfl

/-- Rows with scalar keys are read as a result with a group for each row. Its entries are told by
    the labels of the keys, and there are none if a key is too long for a label. -/
theorem decode_hasEntries {p : FieldPlan} (hpointer : p.pointer = false) (className : Value)
    {rows : List (List (Value × Value))} (h : ∀ es ∈ rows, IsScalarRow p className es) :
    ∃ r, (byField p).decode className (.list (rows.map .map)) = .ok r ∧
      r.toPairs = rows.map (fun es => (Value.getD es "key", Value.getD es "count")) ∧
      ((∀ key ∈ r.keys, key.digits ≤ Whole.maxDigits) →
        ∃ entries, r.toEntries = .ok entries ∧ r.HasEntries entries) ∧
      ((∃ key ∈ r.keys, Whole.maxDigits < key.digits) →
        r.toEntries = .error (.argument .intTooLong)) := by
  obtain ⟨groups, hgroups⟩ := exists_forall₂ fun es hes => (h es hes).exists_group hpointer
  have hpairs : rows.map (fun es => (Value.getD es "key", Value.getD es "count")) =
      groups.map Group.pair := map_eq_map_of_forall₂ hgroups fun _ _ hg => hg.2.1.symm
  have hkeys : ∀ g ∈ groups, g.key.IsScalarKey :=
    forall_mem_of_forall₂ hgroups fun _ _ hg => hg.2.2
  have hread : List.Forall₂ (fun row g => (byField p).decodeRow className row = .ok g ∧
      ∃ k, g.key.hashedKey = .ok k) (rows.map .map) groups :=
    List.forall₂_map_left_iff.mpr (hgroups.imp fun _ _ hg => ⟨hg.1, hg.2.2.exists_hashedKey⟩)
  obtain ⟨r, hdecode, rfl, hlabelling⟩ := exists_decode hread
  refine ⟨r, hdecode, hpairs.symm, fun hdigits => ?_, GroupResult.toEntries_of_lt hlabelling⟩
  exact ⟨_, GroupResult.toEntries_of_byKey hlabelling hdigits,
    GroupResult.hasEntries_of_isScalarKey (List.forall_mem_map.mpr hkeys)⟩

/-- Songs by year: a null, a year that is a text and one that is a number. -/
theorem decode_hasEntries_years :
    let p : FieldPlan := ⟨"year", false, .ofQuery false, false, false⟩
    let rows : List (List (Value × Value)) := [
      [(.text "key", .null), (.text "count", .int 1)],
      [(.text "key", .text "1990"), (.text "count", .int 2)],
      [(.text "key", .int 1991), (.text "count", .int 3)]]
    ∃ r entries, (byField p).decode (.text "Song") (.list (rows.map .map)) = .ok r ∧
      r.toEntries = .ok entries ∧ entries.length = r.size ∧
      Assoc.keys entries = [.text "null", .text "1990", .text "1991"] := by
  intro p rows
  have hrows : ∀ es ∈ rows, IsScalarRow p (.text "Song") es := by
    simp only [rows, List.forall_mem_cons]
    exact ⟨⟨.null, _, rfl⟩, ⟨.text (.text "1990"), _, rfl⟩, ⟨.int 1991, _, rfl⟩, nofun⟩
  obtain ⟨r, hdecode, hpairs, hfits, -⟩ := decode_hasEntries rfl (.text "Song") hrows
  have hkeys : r.keys = [.null, .text "1990", .int 1991] := by
    have hmap : r.keys = r.toPairs.map (·.1) := by
      simp [GroupResult.keys, GroupResult.toPairs, Group.pair]
    rw [hmap, hpairs]
    rfl
  obtain ⟨entries, hentries, h⟩ := hfits (by rw [hkeys]; decide)
  refine ⟨r, entries, hdecode, hentries, (h.length ?_).mpr ?_, h.labels.trans ?_⟩
  · rw [hkeys, List.pairwise_cons]
    exact ⟨by simp; exact ⟨rfl, rfl⟩, List.pairwise_pair.mpr rfl⟩
  · intro s hs w hw hwtext
    rw [hkeys] at hs hw
    obtain rfl : s = "1990" := by simpa using hs
    simp only [List.mem_cons, List.not_mem_nil, or_false] at hw
    rcases hw with rfl | rfl | rfl
    · decide
    · exact absurd (.text "1990") hwtext
    · decide
  · rw [hkeys]
    rfl

/-- A null and the text that shows it: the keys differ, and one of the two counts is lost. -/
theorem null_and_its_label_share_an_entry :
    let p : FieldPlan := ⟨"genre", false, .ofQuery false, false, false⟩
    let rows : List Value := [
      .object [("key", .null), ("count", .int 1)],
      .object [("key", .text "null"), ("count", .int 2)]]
    ∃ r entries, (byField p).decode (.text "Song") (.list rows) = .ok r ∧
      (∀ v ∈ r.keys, v.IsScalarKey) ∧ (r.keys.Pairwise fun a b => (a == b) = false) ∧
      r.toEntries = .ok entries ∧ r.size = 2 ∧ entries.length = 1 ∧
      ¬ (entries.map (·.2)).Perm r.counts := by
  refine ⟨_, _, rfl, ?_, ?_, rfl, rfl, rfl, ?_⟩
  · exact List.forall_mem_cons.mpr ⟨.null, List.forall_mem_cons.mpr ⟨.text (.text "null"), nofun⟩⟩
  · exact List.pairwise_pair.mpr rfl
  · exact fun h => absurd h.length_eq (by decide)

end GroupPlan

end DocQuery
