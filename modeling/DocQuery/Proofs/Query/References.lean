-- SUMMARY: The distinct values of a pointer column: how they are shown, and which of them are equal.
import DocQuery.Proofs.Group.Rows
import DocQuery.Proofs.Pointer

/-!
# Distinct values of a pointer column

Compact texts are read as pointers and shown in one of three forms. No form shows different
pointers as equal values, so two values are equal only where two texts are read as one
pointer: where the texts differ in a line end alone.
-/

namespace DocQuery

open Text (bare endsLine)

namespace Pointer

/-- Two texts are read as one pointer exactly when they are the same but for a line end. -/
theorem eq_iff_bare_eq {s t : String} {p q : Pointer} (hp : ofCompact (.text s) = .ok p)
    (hq : ofCompact (.text t) = .ok q) : p = q ↔ bare s = bare t := by
  obtain ⟨hplain, s, ⟨⟩, hs⟩ := ofCompact_eq_ok_iff.mp hp
  obtain ⟨hplain', t, ⟨⟩, ht⟩ := ofCompact_eq_ok_iff.mp hq
  rw [hs, ht]
  constructor
  · rintro rfl
    rfl
  · exact compact_inj hplain.dollar_not_mem hplain'.dollar_not_mem

end Pointer

namespace DistinctPlan

variable {plan : DistinctPlan} {ps : List Pointer}

/-! ## Forms -/

/-- The form in which a list of pointers is shown. -/
inductive IsForm (plan : DistinctPlan) (ps : List Pointer) : (Pointer → Value) → Prop
  | pointers (h : plan.asPointers = true) : IsForm plan ps .pointer
  | ids (h : plan.asPointers = false)
    (hclass : ∀ p ∈ ps, ∀ q ∈ ps, p.className = q.className) :
    IsForm plan ps fun p => .text p.objectId
  | compact (h : plan.asPointers = false)
    (hclass : ¬∀ p ∈ ps, ∀ q ∈ ps, p.className = q.className) :
    IsForm plan ps fun p => .text p.compact

theorem exists_isForm (plan : DistinctPlan) (ps : List Pointer) :
    ∃ form, plan.IsForm ps form ∧ plan.shown ps = ps.map form := by
  cases hpointers : plan.asPointers with
  | true =>
    refine ⟨.pointer, .pointers hpointers, ?_⟩
    cases ps with
    | nil => rfl
    | cons first rest => rw [shown, if_pos hpointers]
  | false =>
    cases ps with
    | nil => exact ⟨_, .ids hpointers (List.forall_mem_nil _), rfl⟩
    | cons first rest =>
      have hshared : (rest.all fun q => q.className == first.className) = true ↔
          ∀ p ∈ first :: rest, ∀ q ∈ first :: rest, p.className = q.className := by
        simp only [List.all_eq_true, beq_iff_eq]
        constructor
        · intro h
          have hfirst : ∀ p ∈ first :: rest, p.className = first.className :=
            List.forall_mem_cons.mpr ⟨rfl, h⟩
          exact fun p hp q hq => (hfirst p hp).trans (hfirst q hq).symm
        · exact fun h q hq => h q (List.mem_cons_of_mem _ hq) first List.mem_cons_self
      rw [shown, if_neg (Bool.eq_false_iff.mp hpointers)]
      split
      · rename_i hclass
        exact ⟨_, .ids hpointers (hshared.mp hclass), rfl⟩
      · rename_i hclass
        exact ⟨_, .compact hpointers (fun h => hclass (hshared.mpr h)), rfl⟩

/-- No form shows two pointers as equal values. -/
theorem IsForm.beq_iff {form : Pointer → Value} (h : plan.IsForm ps form)
    (hclass : ∀ p ∈ ps, '$' ∉ p.className.toList) {p q : Pointer} (hp : p ∈ ps) (hq : q ∈ ps) :
    (form p == form q) = true ↔ p = q := by
  have htext : ∀ s t : String, (Value.text s == Value.text t) = true ↔ t = s := by
    intro s t
    rw [Value.beq_text_iff, Value.text?, Option.some.injEq, eq_comm]
  cases h with
  | pointers => exact beq_iff_eq (α := Pointer)
  | ids _ hshared =>
    rw [htext]
    constructor
    · intro hid
      have hname := hshared p hp q hq
      obtain ⟨className, objectId⟩ := p
      cases hid
      cases hname
      rfl
    · rintro rfl
      rfl
  | compact =>
    rw [htext]
    constructor
    · exact fun h => Pointer.compact_inj (hclass p hp) (hclass q hq) h.symm
    · rintro rfl
      rfl

theorem IsForm.pairwise_map_iff {form : Pointer → Value} (h : plan.IsForm ps form)
    (hclass : ∀ p ∈ ps, '$' ∉ p.className.toList) :
    ((ps.map form).Pairwise fun v w => (v == w) = false) ↔ ps.Nodup := by
  rw [List.pairwise_map]
  refine List.Pairwise.iff_of_mem fun {p q} hp hq => ?_
  rw [← Bool.not_eq_true, h.beq_iff hclass hp hq]

/-! ## Rows of compact texts -/

theorem allSome_map_some (ps : List Pointer) : allSome (ps.map some) = some ps := by
  induction ps with
  | nil => rfl
  | cons p ps ih =>
    rw [List.map_cons, allSome, ih]
    rfl

section Rows

variable {rows : List Value} {ss : List String}

/-- Rows of compact texts are read as the pointers of the texts. -/
theorem decode_eq_shown (hpointer : plan.pointer = true) (hvalues : valuesOf rows = ss.map .text)
    (hread : List.Forall₂ (fun s p => Pointer.ofCompact (.text s) = .ok p) ss ps) :
    plan.decode rows = .ok (plan.shown ps) := by
  have hpointers : (ss.map Value.text).mapM plan.asPointer? = .ok (ps.map some) := by
    rw [mapM_eq_ok_iff, List.forall₂_map_left_iff, List.forall₂_map_right_iff]
    refine hread.imp fun s p hp => ?_
    obtain ⟨hplain, _, ⟨⟩, hs⟩ := Pointer.ofCompact_eq_ok_iff.mp hp
    show (if (Value.text s).isText && !plan.pointer then _ else _) = _
    rw [hpointer, Bool.not_true, Bool.and_false, if_neg Bool.false_ne_true]
    exact congrArg Except.ok (Pointer.ofCompact?_eq_some_iff.mpr ⟨hplain, hs⟩)
  rw [decode, hvalues, hpointers]
  exact congrArg (fun all : Option (List Pointer) => Except.ok (all.elim _ plan.shown))
    (allSome_map_some ps)

/-- The texts but for their line ends are the compact texts of the pointers. -/
theorem map_bare_eq (hread : List.Forall₂ (fun s p => Pointer.ofCompact (.text s) = .ok p) ss ps) :
    ss.map bare = ps.map Pointer.compact := by
  induction hread with
  | nil => rfl
  | cons hhead _ ih =>
    obtain ⟨_, _, ⟨⟩, hs⟩ := Pointer.ofCompact_eq_ok_iff.mp hhead
    rw [List.map_cons, List.map_cons, hs, ih]

theorem nodup_map_bare_iff
    (hread : List.Forall₂ (fun s p => Pointer.ofCompact (.text s) = .ok p) ss ps) :
    (ss.map bare).Nodup ↔ ps.Nodup := by
  have hclass : ∀ p ∈ ps, '$' ∉ p.className.toList :=
    forall_mem_of_forall₂ hread fun s p hp => (Pointer.ofCompact_eq_ok_iff.mp hp).1.dollar_not_mem
  rw [map_bare_eq hread]
  exact ⟨List.Nodup.of_map _,
    List.Nodup.map_on fun p hp q hq => Pointer.compact_inj (hclass p hp) (hclass q hq)⟩

end Rows

/-- A text that is read as a pointer is the compact text of the pointer, but for a line end, so
    two texts are read as one pointer exactly when they are the same but for a line end; and
    the texts of a pointer column are shown as values that differ from each other exactly when
    the texts do, line ends aside. -/
theorem references_reencoded (plan : DistinctPlan) :
    (∀ v p, Pointer.ofCompact v = .ok p → ∃ s, v = .text s ∧ p.compact = bare s ∧
      (p.compact = s ↔ endsLine s = false)) ∧
    (∀ s t p q, Pointer.ofCompact (.text s) = .ok p → Pointer.ofCompact (.text t) = .ok q →
      (p = q ↔ bare s = bare t)) ∧
    ∀ (rows : List Value) (ss : List String) (ps : List Pointer), plan.pointer = true →
      valuesOf rows = ss.map .text →
      List.Forall₂ (fun s p => Pointer.ofCompact (.text s) = .ok p) ss ps →
      ∃ form, plan.IsForm ps form ∧ plan.decode rows = .ok (ps.map form) ∧
        (((ps.map form).Pairwise fun v w => (v == w) = false) ↔ (ss.map bare).Nodup) := by
  refine ⟨?_, fun s t p q => Pointer.eq_iff_bare_eq, ?_⟩
  · intro v p hp
    obtain ⟨_, s, rfl, hs⟩ := Pointer.ofCompact_eq_ok_iff.mp hp
    refine ⟨s, rfl, hs.symm, ?_⟩
    rw [← hs, Text.bare_eq_self_iff]
  · intro rows ss ps hpointer hvalues hread
    obtain ⟨form, hform, hshown⟩ := plan.exists_isForm ps
    have hclass : ∀ p ∈ ps, '$' ∉ p.className.toList :=
      forall_mem_of_forall₂ hread fun s p hp =>
        (Pointer.ofCompact_eq_ok_iff.mp hp).1.dollar_not_mem
    refine ⟨form, hform, ?_, ?_⟩
    · rw [decode_eq_shown hpointer hvalues hread, hshown]
    · rw [hform.pairwise_map_iff hclass, nodup_map_bare_iff hread]

theorem references_reencoded_artists :
    let rows := ["Artist$a1", "_User$u-1"].map fun s => Value.object [("value", .text s)]
    (⟨"Artist", "a1"⟩ : Pointer).compact = "Artist$a1" ∧
    (⟨"Artist", "a1"⟩ : Pointer) ≠ ⟨"_User", "u-1"⟩ ∧
    ∃ form, (⟨"owner", true, false⟩ : DistinctPlan).IsForm
        [⟨"Artist", "a1"⟩, ⟨"_User", "u-1"⟩] form ∧
      (⟨"owner", true, false⟩ : DistinctPlan).decode rows =
        .ok [form ⟨"Artist", "a1"⟩, form ⟨"_User", "u-1"⟩] ∧
      [form ⟨"Artist", "a1"⟩, form ⟨"_User", "u-1"⟩].Pairwise fun v w => (v == w) = false := by
  intro rows
  have hartist : Pointer.ofCompact (.text "Artist$a1") = .ok ⟨"Artist", "a1"⟩ := rfl
  have huser : Pointer.ofCompact (.text "_User$u-1") = .ok ⟨"_User", "u-1"⟩ := rfl
  obtain ⟨hreencoded, hsame, hdecoded⟩ := references_reencoded ⟨"owner", true, false⟩
  obtain ⟨s, hs, _, hbare⟩ := hreencoded _ _ hartist
  cases hs
  obtain ⟨form, hform, hdecode, hdistinct⟩ := hdecoded rows ["Artist$a1", "_User$u-1"] _ rfl rfl
    (.cons hartist (.cons huser .nil))
  refine ⟨hbare.mpr (by decide), fun heq => ?_, form, hform, hdecode, hdistinct.mpr (by decide)⟩
  exact absurd ((hsame _ _ _ _ hartist huser).mp heq) (by decide)

/-- A line end is lost: the text with it is read as the pointer of the text without it, and a
    column that holds both shows one value twice. -/
theorem line_end_lost :
    let rows := ["Artist$a1", "Artist$a1\n"].map fun s => Value.object [("value", .text s)]
    Pointer.ofCompact (.text "Artist$a1\n") = .ok ⟨"Artist", "a1"⟩ ∧
    (⟨"Artist", "a1"⟩ : Pointer).compact ≠ "Artist$a1\n" ∧
    (⟨"artist", true, true⟩ : DistinctPlan).decode rows =
      .ok [.pointer ⟨"Artist", "a1"⟩, .pointer ⟨"Artist", "a1"⟩] ∧
    (⟨"artist", true, false⟩ : DistinctPlan).decode rows = .ok [.text "a1", .text "a1"] := by
  exact ⟨rfl, by decide, rfl, rfl⟩

end DistinctPlan

end DocQuery
