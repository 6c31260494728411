-- SUMMARY: Texts of pointer columns: what is shown for them, and which are read as pointers elsewhere.
import DocQuery.Proofs.Document
import DocQuery.Proofs.Json.Data
import DocQuery.Proofs.Pointer

/-!
# Texts of pointer columns

A text in a pointer column is shown as a pointer wherever it has a dollar sign: what stands
before the first one is the class, all that follows is the id. Elsewhere a text is read as a
pointer only if class and id have their proper form. Where it is, and ends in no line end, it
is the same pointer that is shown for it.
-/

namespace DocQuery.Document

open Json (ofPoints_ofText points?_ofPoints)
open Selection (column_mark storedPointer_compact)
open Text (CodePoint bare endsLine)
open Text.CodePoint (ofText)

/-! ## Split texts -/

/-- The wire form of the pointer with a class and an id. -/
def splitPointer (className objectId : List CodePoint) : Value :=
  .object [("__type", .text "Pointer"), ("className", .ofPoints className),
    ("objectId", .ofPoints objectId)]

/-- What is shown for a text in a pointer column. -/
inductive IsShownPointer (v : Value) : Value → Prop
  | split {front back : List CodePoint} (hv : v.points? = some (front ++ .char '$' :: back))
    (hfront : .char '$' ∉ front) : IsShownPointer v (splitPointer front back)
  | kept {ps : List CodePoint} (hv : v.points? = some ps) (hps : .char '$' ∉ ps) :
    IsShownPointer v v

theorem splitPointer_ofText (p : Pointer) :
    splitPointer (ofText p.className) (ofText p.objectId) = p.toWire := by
  rw [splitPointer, ofPoints_ofText, ofPoints_ofText]
  rfl

theorem splitPointer_eq_toWire_iff {front back : List CodePoint} {p : Pointer} :
    splitPointer front back = p.toWire ↔ front = ofText p.className ∧ back = ofText p.objectId := by
  have hpoints : ∀ {ps : List CodePoint} {s : String},
      Value.ofPoints ps = .text s → ps = ofText s := by
    intro ps s h
    have hread := points?_ofPoints ps
    rw [h] at hread
    exact (Option.some.inj hread).symm
  constructor
  · intro h
    obtain ⟨hclass, hid⟩ : Value.ofPoints front = .text p.className ∧
        Value.ofPoints back = .text p.objectId := by
      simpa [splitPointer, Pointer.toWire, Value.object] using h
    exact ⟨hpoints hclass, hpoints hid⟩
  · rintro ⟨rfl, rfl⟩
    exact splitPointer_ofText p

theorem ofText_compact (p : Pointer) :
    ofText p.compact = ofText p.className ++ .char '$' :: ofText p.objectId := by
  simp only [ofText, Pointer.toList_compact, List.map_append, List.map_cons]

theorem dollar_mem_ofText_iff {s : String} : .char '$' ∈ ofText s ↔ '$' ∈ s.toList := by
  simp [ofText]

theorem dollar_not_mem_tagKey (k : TagKey) : .char '$' ∉ ofText k.text := by
  rw [dollar_mem_ofText_iff]
  cases k <;> decide

theorem storedPointer_split {v : Value} {front back : List CodePoint}
    (hv : v.points? = some (front ++ .char '$' :: back)) (hfront : .char '$' ∉ front) :
    storedPointer v = splitPointer front back := by
  cases v with
  | text s =>
    obtain ⟨cs, ds, hs, rfl, hback⟩ := List.map_eq_append_iff.mp (Option.some.inj hv)
    obtain ⟨c, ds, rfl, hdollar, rfl⟩ := List.map_eq_cons_iff.mp hback
    cases hdollar
    -- the text is the compact one of its parts
    let p : Pointer := ⟨String.ofList cs, String.ofList ds⟩
    have hclass : '$' ∉ p.className.toList := by
      rw [String.toList_ofList]
      exact fun hmem => hfront (List.mem_map_of_mem hmem)
    have hcompact : s = p.compact := by
      rw [← String.toList_inj, hs, Pointer.toList_compact, String.toList_ofList,
        String.toList_ofList]
    rw [hcompact, storedPointer_compact hclass, ← splitPointer_ofText]
    simp only [p, ofText, String.toList_ofList]
  | brokenText t =>
    have hother : ∀ p ∈ front, (p != CodePoint.char '$') = true := by
      intro p hp
      rw [bne_iff_ne]
      rintro rfl
      exact hfront hp
    rw [storedPointer, Option.some.inj hv, List.dropWhile_append_of_pos hother,
      List.takeWhile_append_of_pos hother, List.dropWhile_cons_of_neg (by simp),
      List.takeWhile_cons_of_neg (by simp), List.append_nil]
    rfl
  | tagKey k =>
    refine absurd ?_ (dollar_not_mem_tagKey k)
    rw [Option.some.inj hv]
    exact List.mem_append_right _ List.mem_cons_self
  | _ => cases hv

theorem storedPointer_kept {v : Value} {ps : List CodePoint} (hv : v.points? = some ps)
    (hps : .char '$' ∉ ps) : storedPointer v = v := by
  have hnone : ∀ {s : String}, '$' ∉ s.toList → s.toList.dropWhile (· != '$') = [] := by
    intro s hs
    rw [List.dropWhile_eq_nil_iff]
    rintro c hc
    rw [bne_iff_ne]
    rintro rfl
    exact hs hc
  cases v with
  | text s =>
    cases hv
    rw [dollar_mem_ofText_iff] at hps
    simp only [storedPointer, Value.text?, hnone hps]
  | brokenText t =>
    cases hv
    have hdropped : t.points.dropWhile (· != CodePoint.char '$') = [] := by
      rw [List.dropWhile_eq_nil_iff]
      rintro p hp
      rw [bne_iff_ne]
      rintro rfl
      exact hps hp
    simp only [storedPointer, hdropped]
  | tagKey k => cases k <;> rfl
  | _ => cases hv

theorem isShownPointer_storedPointer {v : Value} {ps : List CodePoint} (hv : v.points? = some ps) :
    IsShownPointer v (storedPointer v) := by
  by_cases hdollar : .char '$' ∈ ps
  · obtain ⟨front, back, rfl, hfront⟩ := List.eq_append_cons_of_mem hdollar
    rw [storedPointer_split hv hfront]
    exact .split hv hfront
  · rw [storedPointer_kept hv hdollar]
    exact .kept hv hdollar

/-! ## What is shown -/

section Shown

variable {v w : Value} {ps : List CodePoint}

theorem IsShownPointer.isTagged_iff (h : IsShownPointer v w) (hv : v.points? = some ps) :
    w.isTagged "Pointer" = true ↔ .char '$' ∈ ps := by
  cases h with
  | split hsplit _ =>
    cases hv.symm.trans hsplit
    exact ⟨fun _ => List.mem_append_right _ List.mem_cons_self, fun _ => rfl⟩
  | kept hkept hps =>
    cases hv.symm.trans hkept
    have hplain : v.isTagged "Pointer" = false := by
      cases v with
      | map es => cases hv
      | _ => rfl
    rw [hplain]
    exact ⟨fun h => (nomatch h), fun h => absurd h hps⟩

/-- A value with the code points of a compact text is this text. -/
theorem eq_text_compact {p : Pointer} (hv : v.points? = some (ofText p.compact)) :
    v = .text p.compact := by
  have hdollar : .char '$' ∈ ofText p.compact := by
    rw [ofText_compact]
    exact List.mem_append_right _ List.mem_cons_self
  cases v with
  | text s =>
    have hvalue := congrArg Value.ofPoints (Option.some.inj hv)
    rwa [ofPoints_ofText, ofPoints_ofText] at hvalue
  | brokenText t =>
    have hbroken := t.broken
    rw [Option.some.inj hv] at hbroken
    simp [ofText, CodePoint.isSurrogate] at hbroken
  | tagKey k => exact absurd (Option.some.inj hv ▸ hdollar) (dollar_not_mem_tagKey k)
  | _ => cases hv

/-- A pointer is shown exactly for its own compact text, while its class has no dollar sign. -/
theorem IsShownPointer.eq_toWire_iff (h : IsShownPointer v w) {p : Pointer} :
    w = p.toWire ↔ v = .text p.compact ∧ '$' ∉ p.className.toList := by
  cases h with
  | @split front back hv hfront =>
    rw [splitPointer_eq_toWire_iff]
    constructor
    · rintro ⟨rfl, rfl⟩
      rw [← ofText_compact] at hv
      exact ⟨eq_text_compact hv, fun hmem => hfront (dollar_mem_ofText_iff.mpr hmem)⟩
    · rintro ⟨rfl, hclass⟩
      rw [← splitPointer_eq_toWire_iff, ← storedPointer_split hv hfront,
        storedPointer_compact hclass]
  | kept hv hps =>
    constructor
    · rintro rfl
      cases hv
    · rintro ⟨rfl, _⟩
      cases hv
      refine absurd ?_ hps
      rw [ofText_compact]
      exact List.mem_append_right _ List.mem_cons_self

end Shown

/-! ## Pointer columns -/

theorem toWire_pointerColumn (x : String) (v : Value) :
    toWire (.object [("_p_" ++ x, v)]) .null = .ok (.object [(x, storedPointer v)]) := by
  refine toWire_of_outcomes (List.nodup_singleton _) (.cons ?_ .nil)
  have hvalue : (stored v).value = v := by
    cases v <;> rfl
  rw [StoredColumn.outcome, columnOutcome, column_mark, hvalue]

/-- A pointer column shows a text as a pointer exactly when it has a dollar sign. A text with no
    line end behind it is read as a pointer exactly when this pointer is plain, and as the same
    pointer. The compact text of a pointer is shown as the pointer while the class has no dollar
    sign, and is read as the pointer exactly when it is plain, so both is the case for each plain
    pointer. -/
theorem pointer_readings_agree (x : String) :
    (∀ v ps, v.points? = some ps → ∃ w,
      toWire (.object [("_p_" ++ x, v)]) .null = .ok (.object [(x, w)]) ∧
      IsShownPointer v w ∧ (w.isTagged "Pointer" = true ↔ .char '$' ∈ ps) ∧
      (ps.getLast? ≠ some (.char '\n') →
        ∀ p, Pointer.ofCompact v = .ok p ↔ p.IsPlain ∧ w = p.toWire)) ∧
    ∀ p : Pointer,
      (toWire (.object [("_p_" ++ x, .text p.compact)]) .null = .ok (.object [(x, p.toWire)]) ↔
        '$' ∉ p.className.toList) ∧
      (Pointer.ofCompact (.text p.compact) = .ok p ↔ p.IsPlain) ∧
      (p.IsPlain → '$' ∉ p.className.toList) := by
  constructor
  · intro v ps hv
    have hshown := isShownPointer_storedPointer hv
    refine ⟨storedPointer v, toWire_pointerColumn x v, hshown, hshown.isTagged_iff hv, ?_⟩
    intro hline p
    rw [hshown.eq_toWire_iff, Pointer.ofCompact_eq_ok_iff]
    constructor
    · rintro ⟨hplain, s, rfl, hs⟩
      cases hv
      have hend : endsLine s = false := by
        rw [endsLine, beq_eq_false_iff_ne]
        intro hlast
        refine hline ?_
        rw [ofText, List.getLast?_map, hlast]
        rfl
      rw [← hs, Text.bare_of_not_endsLine hend]
      exact ⟨hplain, rfl, hplain.dollar_not_mem⟩
    · rintro ⟨hplain, rfl, _⟩
      exact ⟨hplain, _, rfl, Text.bare_of_not_endsLine hplain.not_endsLine⟩
  · intro p
    have hshown : IsShownPointer (.text p.compact) (storedPointer (.text p.compact)) :=
      isShownPointer_storedPointer rfl
    refine ⟨?_, ?_, fun hplain => hplain.dollar_not_mem⟩
    · rw [toWire_pointerColumn]
      simp only [Value.object, List.map_cons, List.map_nil, Except.ok.injEq, Value.map.injEq,
        List.cons.injEq, Prod.mk.injEq, true_and, and_true, hshown.eq_toWire_iff]
    · rw [Pointer.ofCompact_eq_ok_iff]
      constructor
      · exact And.left
      · exact fun hplain => ⟨hplain, _, rfl, Text.bare_of_not_endsLine hplain.not_endsLine⟩

theorem pointer_readings_agree_artist :
    (Value.text "Artist$a-1").points? = some (ofText "Artist$a-1") ∧
    (ofText "Artist$a-1").getLast? ≠ some (.char '\n') ∧
    toWire (.object [("_p_artist", .text "Artist$a-1")]) .null =
      .ok (.object [("artist", Pointer.toWire ⟨"Artist", "a-1"⟩)]) ∧
    Pointer.ofCompact (.text "Artist$a-1") = .ok ⟨"Artist", "a-1"⟩ := by
  have hlast : (ofText "Artist$a-1").getLast? ≠ some (.char '\n') := by
    decide
  have hplain : (⟨"Artist", "a-1"⟩ : Pointer).IsPlain :=
    (Pointer.ofCompact_eq_ok_iff (v := .text "Artist$a-1").mp rfl).1
  obtain ⟨hreads, hcompact⟩ := pointer_readings_agree "artist"
  obtain ⟨w, hw, _, _, hsame⟩ := hreads (.text "Artist$a-1") _ rfl
  obtain ⟨hshown, _, hclass⟩ := hcompact ⟨"Artist", "a-1"⟩
  have hpointer : toWire (.object [("_p_artist", .text "Artist$a-1")]) .null =
      .ok (.object [("artist", Pointer.toWire ⟨"Artist", "a-1"⟩)]) :=
    hshown.mpr (hclass hplain)
  have hw : w = Pointer.toWire ⟨"Artist", "a-1"⟩ := by
    have hboth := Except.ok.inj (hw.symm.trans hpointer)
    simpa [Value.object] using hboth
  exact ⟨rfl, hlast, hpointer, (hsame hlast _).mpr ⟨hplain, hw⟩⟩

/-- A text is shown as a pointer whose class begins with a digit, and not read as one. -/
theorem numbered_class_shown_not_read :
    toWire (.object [("_p_x", .text "1Artist$a1")]) .null =
      .ok (.object [("x", Pointer.toWire ⟨"1Artist", "a1"⟩)]) ∧
    Pointer.ofCompact (.text "1Artist$a1") =
      .error (.argument (.notACompactPointer (.text "1Artist$a1"))) ∧
    (⟨"1Artist", "a1"⟩ : Pointer).compact = "1Artist$a1" := by
  refine ⟨?_, rfl, by decide⟩
  rfl

end DocQuery.Document
