-- SUMMARY: Which names come back from their wire spelling.
import DocQuery.Proofs.FieldName.Spelling
import DocQuery.Proofs.Selection
import Mathlib.Data.List.Basic

/-!
# Names and their wire spelling

A step of a path is made of parts, lower case letters and digits, with underscores between
them. On the wire a part that begins with a letter gives up its underscore for a capital, and
it gets the underscore back only where the capital follows a lower case letter or a digit.
After a single letter it does not: that letter is a capital itself. The alias of `id` is read
as `object_id`. All other names come back as they were.
-/

namespace DocQuery.FieldName

/-! ## Joined pieces -/

theorem splitOn_append_cons {sep : Char} {piece : List Char} (h : sep ∉ piece) (cs : List Char) :
    splitOn sep (piece ++ sep :: cs) = piece :: splitOn sep cs := by
  induction piece with
  | nil => rw [List.nil_append, splitOn, if_pos rfl]
  | cons c piece ih =>
    rw [List.mem_cons, not_or] at h
    rw [List.cons_append, splitOn, if_neg (Ne.symm h.1), ih h.2]

/-- Pieces without the separator come back from the text that joins them. -/
theorem splitOn_joinWith {sep : Char} {pieces : List (List Char)} (hne : pieces ≠ [])
    (h : ∀ p ∈ pieces, sep ∉ p) : splitOn sep (joinWith sep pieces) = pieces := by
  obtain ⟨piece, rest, rfl⟩ := List.exists_cons_of_ne_nil hne
  clear hne
  induction rest generalizing piece with
  | nil => exact Selection.splitOn_of_not_mem (h piece List.mem_cons_self)
  | cons next rest ih =>
    obtain ⟨hpiece, hrest⟩ := List.forall_mem_cons.mp h
    have hjoin : joinWith sep (piece :: next :: rest) =
        piece ++ sep :: joinWith sep (next :: rest) := rfl
    rw [hjoin, splitOn_append_cons hpiece, ih next hrest]

theorem joinWith_injective {sep : Char} {ps qs : List (List Char)} (hps : ps ≠ []) (hqs : qs ≠ [])
    (hp : ∀ p ∈ ps, sep ∉ p) (hq : ∀ q ∈ qs, sep ∉ q) (h : joinWith sep ps = joinWith sep qs) :
    ps = qs := by
  rw [← splitOn_joinWith hps hp, h, splitOn_joinWith hqs hq]

theorem joinWith_cons (sep : Char) (piece : List Char) (rest : List (List Char)) :
    joinWith sep (piece :: rest) = piece ++ rest.flatMap (sep :: ·) := by
  induction rest generalizing piece with
  | nil => simp [joinWith]
  | cons next rest ih =>
    have hjoin : joinWith sep (piece :: next :: rest) =
        piece ++ sep :: joinWith sep (next :: rest) := rfl
    rw [hjoin, ih, List.flatMap_cons, List.cons_append]

/-! ## Case of ASCII characters -/

theorem of_lt {P : Char → Prop} (h : ∀ n, n < 128 → P (Char.ofNat n)) {c : Char}
    (hc : c.toNat < 128) : P c := by
  have hP := h c.toNat hc
  rwa [Char.ofNat_toNat] at hP

theorem isLetter_of_lt {c : Char} (h : c.toNat < 128) : Text.isLetter c = c.isAlpha :=
  of_lt (P := fun c => Text.isLetter c = c.isAlpha) (by decide +kernel) h

theorem lowerAnywhere_of_lt {c : Char} (h : c.toNat < 128) : Text.lowerAnywhere c = [c.toLower] :=
  of_lt (P := fun c => Text.lowerAnywhere c = [c.toLower]) (by decide +kernel) h

/-- A text of ASCII characters is put into lower case character by character. -/
theorem lower_of_lt {cs : List Char} (h : ∀ c ∈ cs, c.toNat < 128) :
    Text.lower cs = cs.map Char.toLower := by
  have hafter : ∀ before, Text.lowerAfter before cs = cs.map Char.toLower := by
    induction cs with
    | nil => exact fun before => rfl
    | cons c cs ih =>
      intro before
      obtain ⟨hc, hcs⟩ := List.forall_mem_cons.mp h
      have hsigma : c ≠ 'Σ' := by
        rintro rfl
        exact absurd hc (by decide)
      rw [Text.lowerAfter, if_neg hsigma, lowerAnywhere_of_lt hc, ih hcs, List.map_cons]
      rfl
  exact hafter []

/-! ## Lower case letters and digits -/

theorem toNat_lt_of_isLower {c : Char} (h : c.isLower = true) : c.toNat < 128 := by
  have hz : c.val ≤ 'z'.val := of_decide_eq_true (Bool.and_eq_true_iff.mp h).2
  exact Nat.lt_of_le_of_lt (UInt32.le_iff_toNat_le.mp hz) (by decide)

theorem upper_of_isLower {c : Char} (h : c.isLower = true) : Text.upper c = [c.toUpper] :=
  of_lt (P := fun c => c.isLower = true → Text.upper c = [c.toUpper]) (by decide +kernel)
    (toNat_lt_of_isLower h) h

theorem toNat_lt_of_precedesBoundary {c : Char} (h : precedesBoundary c = true) :
    c.toNat < 128 := by
  rw [precedesBoundary, Bool.or_eq_true] at h
  rcases h with h | h
  · exact toNat_lt_of_isLower h
  · have hnine : c.val ≤ '9'.val := of_decide_eq_true (Bool.and_eq_true_iff.mp h).2
    exact Nat.lt_of_le_of_lt (UInt32.le_iff_toNat_le.mp hnine) (by decide)

section Plain

variable {c : Char} (h : precedesBoundary c = true)
include h

theorem isUpper_of_precedesBoundary : c.isUpper = false :=
  of_lt (P := fun c => precedesBoundary c = true → c.isUpper = false) (by decide +kernel)
    (toNat_lt_of_precedesBoundary h) h

theorem toLower_of_precedesBoundary : c.toLower = c :=
  of_lt (P := fun c => precedesBoundary c = true → c.toLower = c) (by decide +kernel)
    (toNat_lt_of_precedesBoundary h) h

theorem isLetter_of_precedesBoundary : Text.isLetter c = c.isLower := by
  rw [isLetter_of_lt (toNat_lt_of_precedesBoundary h)]
  exact of_lt (P := fun c => precedesBoundary c = true → c.isAlpha = c.isLower) (by decide +kernel)
    (toNat_lt_of_precedesBoundary h) h

end Plain

/-- The capital of a lower case letter. -/
theorem toUpper_of_isLower {c : Char} (h : c.isLower = true) :
    c.toUpper.isUpper = true ∧ c.toUpper.toLower = c ∧ precedesBoundary c.toUpper = false :=
  of_lt (P := fun c => c.isLower = true →
      c.toUpper.isUpper = true ∧ c.toUpper.toLower = c ∧ precedesBoundary c.toUpper = false)
    (by decide +kernel) (toNat_lt_of_isLower h) h

/-! ## Steps of a path -/

/-- A part of a step: lower case letters and digits. -/
structure IsPart (part : List Char) : Prop where
  ne_nil : part ≠ []
  plain : ∀ c ∈ part, precedesBoundary c = true

/-- The part begins with a letter. -/
def beginsWithLetter (part : List Char) : Bool :=
  part.head?.any Char.isLower

/-- The parts of a step. The first one begins with a letter. -/
structure IsStep (parts : List (List Char)) : Prop where
  first : ∃ part rest, parts = part :: rest ∧ beginsWithLetter part = true
  parts : ∀ part ∈ parts, IsPart part

instance (part : List Char) : Decidable (IsPart part) :=
  decidable_of_iff (part ≠ [] ∧ part.all precedesBoundary = true)
    ⟨fun h => ⟨h.1, List.all_eq_true.mp h.2⟩, fun h => ⟨h.ne_nil, List.all_eq_true.mpr h.plain⟩⟩

theorem isStep_iff {parts : List (List Char)} :
    IsStep parts ↔ beginsWithLetter parts.headI = true ∧ ∀ part ∈ parts, IsPart part := by
  constructor
  · rintro ⟨⟨part, rest, rfl, hfirst⟩, hparts⟩
    exact ⟨hfirst, hparts⟩
  · rintro ⟨hfirst, hparts⟩
    cases parts with
    | nil => cases hfirst
    | cons part rest => exact ⟨⟨part, rest, rfl, hfirst⟩, hparts⟩

instance (parts : List (List Char)) : Decidable (IsStep parts) :=
  decidable_of_iff _ isStep_iff.symm

/-- The path of given steps, with underscores between the parts of each. -/
def pathText (steps : List (List (List Char))) : String :=
  String.ofList (joinWith '.' (steps.map (joinWith '_')))

/-- Among the parts is a single letter, and directly behind it a part that begins with a
    letter. -/
def HasLoneLetter (parts : List (List Char)) : Prop :=
  ∃ before c next after, parts = before ++ [c] :: next :: after ∧ c.isLower = true ∧
    beginsWithLetter next = true

/-- The part is a single letter. -/
def isLone : List Char → Bool
  | [c] => c.isLower
  | _ => false

/-- Every part begins with no letter or stands behind a lower case letter or a digit of the wire
    spelling; `boundary` tells whether the first part does. -/
def areBounded (boundary : Bool) : List (List Char) → Bool
  | [] => true
  | part :: rest => (boundary || !beginsWithLetter part) && areBounded (!isLone part) rest

/-- The parts with the underscores that come back. -/
def rejoined (boundary : Bool) : List (List Char) → List Char
  | [] => []
  | part :: rest =>
    (if boundary || !beginsWithLetter part then '_' :: part else part)
      ++ rejoined (!isLone part) rest

theorem hasLoneLetter_cons {part : List Char} {rest : List (List Char)} :
    HasLoneLetter (part :: rest) ↔
      (isLone part = true ∧ rest.head?.any beginsWithLetter = true) ∨ HasLoneLetter rest := by
  constructor
  · rintro ⟨before, c, next, after, heq, hc, hnext⟩
    cases before with
    | nil =>
      cases heq
      exact .inl ⟨hc, hnext⟩
    | cons _ before =>
      cases heq
      exact .inr ⟨before, c, next, after, rfl, hc, hnext⟩
  · rintro (⟨hlone, hnext⟩ | ⟨before, c, next, after, rfl, hc, hnext⟩)
    · cases rest with
      | nil => cases hnext
      | cons next after =>
        match part, hlone with
        | [c], hc => exact ⟨[], c, next, after, rfl, hc, hnext⟩
    · exact ⟨part :: before, c, next, after, rfl, hc, hnext⟩

theorem areBounded_iff {boundary : Bool} {parts : List (List Char)} :
    areBounded boundary parts = true ↔
      (boundary = true ∨ parts.head?.any beginsWithLetter = false) ∧ ¬HasLoneLetter parts := by
  induction parts generalizing boundary with
  | nil => simp [areBounded, HasLoneLetter]
  | cons part rest ih =>
    rw [areBounded, Bool.and_eq_true, ih, hasLoneLetter_cons]
    cases isLone part <;> simp

instance (parts : List (List Char)) : Decidable (HasLoneLetter parts) :=
  decidable_of_iff (areBounded true parts = false) <| by
    rw [← Bool.not_eq_true, areBounded_iff, and_iff_right (.inl rfl), not_not]

theorem rejoined_eq_iff {boundary : Bool} {parts : List (List Char)}
    (h : ∀ part ∈ parts, IsPart part) :
    rejoined boundary parts = parts.flatMap ('_' :: ·) ↔ areBounded boundary parts = true := by
  induction parts generalizing boundary with
  | nil => simp [rejoined, areBounded]
  | cons part rest ih =>
    obtain ⟨hpart, hrest⟩ := List.forall_mem_cons.mp h
    rw [rejoined, areBounded, List.flatMap_cons, Bool.and_eq_true, ← ih hrest]
    by_cases hbound : (boundary || !beginsWithLetter part) = true
    · simp [hbound]
    · -- without its underscore the text goes on with a letter
      obtain ⟨c, cs, rfl⟩ := List.exists_cons_of_ne_nil hpart.ne_nil
      have hmark : c ≠ '_' := by
        rintro rfl
        cases hpart.plain '_' List.mem_cons_self
      simp [hbound, hmark]

/-! ## The wire spelling, read back -/

/-- Characters that are no capitals stay as they are. -/
theorem separated_append {cs : List Char} (h : ∀ c ∈ cs, c.isUpper = false)
    (before : Option Char) (more : List Char) :
    separated before (cs ++ more) = cs ++ separated (cs.getLast?.or before) more := by
  induction cs generalizing before with
  | nil => rfl
  | cons c cs ih =>
    obtain ⟨hc, hcs⟩ := List.forall_mem_cons.mp h
    rw [List.cons_append, separated, hc, Bool.false_and, if_neg Bool.false_ne_true, ih hcs]
    cases cs <;> simp [List.getLast?_cons]

theorem mem_separated {before : Option Char} {cs : List Char} {c : Char}
    (h : c ∈ separated before cs) : c = '_' ∨ c ∈ cs := by
  induction cs generalizing before with
  | nil => cases h
  | cons d cs ih =>
    rw [separated, List.mem_append] at h
    rcases h with h | h
    · have hd : c = '_' ∨ c = d := by
        split at h <;> simp_all
      exact hd.imp_right fun heq => List.mem_cons.mpr (.inl heq)
    · exact (ih h).imp_right (List.mem_cons_of_mem d)

/-- A plain text ends in a lower case letter or a digit. -/
theorem any_getLast?_or {cs : List Char} (h : ∀ c ∈ cs, precedesBoundary c = true) (hne : cs ≠ [])
    (before : Option Char) : (cs.getLast?.or before).any precedesBoundary = true := by
  rw [List.getLast?_eq_some_getLast hne]
  exact h _ (List.getLast_mem hne)

theorem map_toLower {cs : List Char} (h : ∀ c ∈ cs, precedesBoundary c = true) :
    cs.map Char.toLower = cs := by
  have hsame : ∀ c ∈ cs, c.toLower = id c := fun c hc => toLower_of_precedesBoundary (h c hc)
  rw [List.map_congr_left hsame, List.map_id]

theorem mem_plain {cs : List Char} (h : ∀ c ∈ cs, precedesBoundary c = true) {c : Char}
    (hc : c ∈ cs) : c.toNat < 128 ∧ c ≠ '.' := by
  refine ⟨toNat_lt_of_precedesBoundary (h c hc), ?_⟩
  rintro rfl
  cases h '.' hc

theorem mem_capitalized {part : List Char} (h : IsPart part) {c : Char}
    (hc : c ∈ capitalized part) : c.toNat < 128 ∧ c ≠ '.' := by
  obtain ⟨d, ds, rfl⟩ := List.exists_cons_of_ne_nil h.ne_nil
  have hd : precedesBoundary d = true := h.plain d List.mem_cons_self
  rw [capitalized, isLetter_of_precedesBoundary hd] at hc
  split at hc
  · next hlower =>
    rw [upper_of_isLower hlower] at hc
    rcases List.mem_cons.mp hc with rfl | hc
    · exact of_lt (P := fun d => d.toUpper.toNat < 128 ∧ (precedesBoundary d = true → d.toUpper ≠ '.'))
        (by decide +kernel) (toNat_lt_of_precedesBoundary hd) |>.imp_right (· hd)
    · exact mem_plain h.plain (List.mem_cons_of_mem d hc)
  · rcases List.mem_cons.mp hc with rfl | hc
    · decide
    · exact mem_plain h.plain hc

/-- A part in wire spelling, with what stands behind it, read back. -/
theorem separated_capitalized {part : List Char} (h : IsPart part) (before : Option Char)
    (more : List Char) : ∃ last : Option Char, last.any precedesBoundary = !isLone part ∧
      (separated before (capitalized part ++ more)).map Char.toLower =
        (if before.any precedesBoundary || !beginsWithLetter part then '_' :: part else part)
          ++ (separated last more).map Char.toLower := by
  obtain ⟨c, cs, rfl⟩ := List.exists_cons_of_ne_nil h.ne_nil
  obtain ⟨hc, hcs⟩ := List.forall_mem_cons.mp h.plain
  have hplain : ∀ d ∈ c :: cs, d.isUpper = false := fun d hd =>
    isUpper_of_precedesBoundary (h.plain d hd)
  have hback : (c :: cs).map Char.toLower = c :: cs := map_toLower h.plain
  have hletter : Text.isLetter c = c.isLower := isLetter_of_precedesBoundary hc
  have hbegins : beginsWithLetter (c :: cs) = c.isLower := rfl
  cases hlower : c.isLower with
  | true =>
    obtain ⟨hupper, hcapital, hlone⟩ := toUpper_of_isLower hlower
    refine ⟨cs.getLast?.or (some c.toUpper), ?_, ?_⟩
    · cases cs with
      | nil => simp [isLone, hlower, hlone]
      | cons d ds => exact any_getLast?_or hcs (List.cons_ne_nil d ds) _
    · have hspelled : capitalized (c :: cs) = c.toUpper :: cs := by
        rw [capitalized, hletter, hlower, if_pos rfl, upper_of_isLower hlower]
        rfl
      rw [hspelled, List.cons_append, separated, hupper, Bool.true_and,
        separated_append (List.forall_mem_cons.mp hplain).2, hbegins, hlower, Bool.not_true,
        Bool.or_false, List.map_append, List.map_append, (List.cons.inj hback).2]
      cases before.any precedesBoundary <;> simp [hcapital]
  | false =>
    refine ⟨(c :: cs).getLast?.or (some '_'), ?_, ?_⟩
    · rw [any_getLast?_or h.plain h.ne_nil]
      cases cs <;> simp [isLone, hlower]
    · have hspelled : capitalized (c :: cs) = '_' :: c :: cs := by
        rw [capitalized, hletter, hlower, if_neg Bool.false_ne_true]
      rw [hspelled, List.cons_append, separated, separated_append hplain, hbegins, hlower,
        Bool.not_false, Bool.or_true, if_pos rfl, List.map_append, List.map_append, hback]
      rfl

/-- The parts behind the first one, in wire spelling and read back. -/
theorem separated_flatMap_capitalized {parts : List (List Char)}
    (h : ∀ part ∈ parts, IsPart part) (before : Option Char) :
    (separated before (parts.flatMap capitalized)).map Char.toLower =
      rejoined (before.any precedesBoundary) parts := by
  induction parts generalizing before with
  | nil => rfl
  | cons part rest ih =>
    obtain ⟨hpart, hrest⟩ := List.forall_mem_cons.mp h
    obtain ⟨last, hlast, hread⟩ :=
      separated_capitalized hpart before (rest.flatMap capitalized)
    rw [List.flatMap_cons, hread, ih hrest, hlast, rejoined]

/-! ## Steps, read back -/

/-- The steps that the aliases of the wire stand for. -/
def aliasedSteps : List (List (List Char)) :=
  [["id".toList], ["object".toList, "id".toList], ["created".toList, "at".toList],
    ["updated".toList, "at".toList]]

/-- A step in wire spelling, read back. -/
def readBack (step : List (List Char)) : List Char :=
  Text.lower (separated none (segmentToWire (joinWith '_' step)))

theorem not_mem_part {part : List Char} (h : IsPart part) {c : Char}
    (hc : precedesBoundary c = false) : c ∉ part := by
  intro hmem
  rw [h.plain c hmem] at hc
  cases hc

section Step

variable {step : List (List Char)} (h : IsStep step)
include h

theorem IsStep.ne_nil : step ≠ [] := by
  obtain ⟨part, rest, rfl, _⟩ := h.first
  exact List.cons_ne_nil part rest

theorem IsStep.mark_not_mem : ∀ part ∈ step, '_' ∉ part := fun part hpart =>
  not_mem_part (h.parts part hpart) rfl

/-- Only these steps have an alias. -/
theorem wireAlias?_joinWith (hstep : step ∉ aliasedSteps) :
    wireAlias? (joinWith '_' step) = none := by
  have haliased : ∀ other ∈ aliasedSteps, other ≠ [] ∧ ∀ part ∈ other, '_' ∉ part := by
    decide
  have hne : ∀ other ∈ aliasedSteps, joinWith '_' step ≠ joinWith '_' other := by
    intro other hother heq
    obtain ⟨hnil, hmark⟩ := haliased other hother
    exact hstep (joinWith_injective h.ne_nil hnil h.mark_not_mem hmark heq ▸ hother)
  simp only [aliasedSteps, List.forall_mem_cons] at hne
  obtain ⟨hid, hobject, hcreated, hupdated, _⟩ := hne
  cases halias : wireAlias? (joinWith '_' step) with
  | none => rfl
  | some name =>
    rw [wireAlias?] at halias
    split at halias
    · rename_i hname
      rcases Bool.or_eq_true_iff.mp hname with hname | hname
      · exact absurd (of_decide_eq_true hname) hid
      · exact absurd (of_decide_eq_true hname) hobject
    · split at halias
      · exact absurd ‹_› hcreated
      · split at halias
        · exact absurd ‹_› hupdated
        · cases halias

theorem segmentToWire_joinWith (hstep : step ∉ aliasedSteps) :
    segmentToWire (joinWith '_' step) = step.headI ++ step.tail.flatMap capitalized := by
  obtain ⟨part, rest, rfl, _⟩ := h.first
  rw [segmentToWire, wireAlias?_joinWith h hstep]
  simp only [splitOn_joinWith h.ne_nil h.mark_not_mem, List.headI_cons, List.tail_cons]

/-- The wire spelling of a step is made of ASCII characters and has no dot. -/
theorem mem_segmentToWire :
    ∀ c ∈ segmentToWire (joinWith '_' step), c.toNat < 128 ∧ c ≠ '.' := by
  by_cases hstep : step ∈ aliasedSteps
  · have haliased : ∀ other ∈ aliasedSteps, (segmentToWire (joinWith '_' other)).all
        (fun c => c.toNat < 128 ∧ c ≠ '.') = true := by
      decide
    simpa only [List.all_eq_true, decide_eq_true_eq] using haliased step hstep
  · rw [segmentToWire_joinWith h hstep]
    obtain ⟨part, rest, rfl, _⟩ := h.first
    obtain ⟨hpart, hrest⟩ := List.forall_mem_cons.mp h.parts
    intro c hc
    rcases List.mem_append.mp hc with hc | hc
    · exact mem_plain hpart.plain hc
    · obtain ⟨other, hother, hc⟩ := List.mem_flatMap.mp hc
      exact mem_capitalized (hrest other hother) hc

theorem mem_separated_segmentToWire :
    ∀ c ∈ separated none (segmentToWire (joinWith '_' step)), c.toNat < 128 ∧ c ≠ '.' := by
  intro c hc
  rcases mem_separated hc with rfl | hc
  · decide
  · exact mem_segmentToWire h c hc

theorem readBack_of_not_aliased (hstep : step ∉ aliasedSteps) :
    readBack step = step.headI ++ rejoined true step.tail := by
  rw [readBack, lower_of_lt fun c hc => (mem_separated_segmentToWire h c hc).1,
    segmentToWire_joinWith h hstep]
  obtain ⟨part, rest, rfl, _⟩ := h.first
  obtain ⟨hpart, hrest⟩ := List.forall_mem_cons.mp h.parts
  have hplain : ∀ c ∈ part, c.isUpper = false := fun c hc =>
    isUpper_of_precedesBoundary (hpart.plain c hc)
  rw [List.headI_cons, List.tail_cons, separated_append hplain, List.map_append, map_toLower hpart.plain,
    separated_flatMap_capitalized hrest, any_getLast?_or hpart.plain hpart.ne_nil]

/-- A step comes back unless it is `id` or has a single letter, behind its first part, before a
    part that begins with a letter. -/
theorem readBack_eq_iff :
    readBack step = joinWith '_' step ↔ step ≠ ["id".toList] ∧ ¬HasLoneLetter step.tail := by
  by_cases hstep : step ∈ aliasedSteps
  · have hbounded : ∀ other ∈ aliasedSteps, areBounded true other.tail = true ∧
        (readBack other = joinWith '_' other ↔ other ≠ ["id".toList]) := by
      decide +kernel
    obtain ⟨hbounded, hback⟩ := hbounded step hstep
    rw [hback, and_iff_left (areBounded_iff.mp hbounded).2]
  · have hid : step ≠ ["id".toList] := by
      rintro rfl
      exact hstep List.mem_cons_self
    rw [readBack_of_not_aliased h hstep]
    obtain ⟨part, rest, rfl, _⟩ := h.first
    rw [joinWith_cons, List.headI_cons, List.tail_cons, List.append_cancel_left_eq,
      rejoined_eq_iff (List.forall_mem_cons.mp h.parts).2, areBounded_iff, and_iff_right hid,
      and_iff_right (.inl rfl)]

theorem dot_not_mem_readBack : '.' ∉ readBack step := by
  rw [readBack, lower_of_lt fun c hc => (mem_separated_segmentToWire h c hc).1, List.mem_map]
  rintro ⟨c, hc, hdot⟩
  obtain ⟨hascii, hne⟩ := mem_separated_segmentToWire h c hc
  have hlower : c.toLower = '.' → c = '.' :=
    of_lt (P := fun c => c.toLower = '.' → c = '.') (by decide +kernel) hascii
  exact hne (hlower hdot)

theorem dot_not_mem_joinWith : '.' ∉ joinWith '_' step := by
  obtain ⟨part, rest, rfl, _⟩ := h.first
  rw [joinWith_cons, List.mem_append, List.mem_flatMap]
  rintro (hdot | ⟨other, hother, hdot⟩)
  · exact not_mem_part (h.parts part List.mem_cons_self) rfl hdot
  · rcases List.mem_cons.mp hdot with hdot | hdot
    · cases hdot
    · exact not_mem_part (h.parts other (List.mem_cons_of_mem part hother)) rfl hdot

/-- A step begins with a letter. -/
theorem head?_joinWith {lead : Char} (hlead : lead ∈ reservedLeads) :
    (joinWith '_' step).head? ≠ some lead := by
  obtain ⟨part, rest, rfl, hfirst⟩ := h.first
  obtain ⟨c, cs, rfl⟩ :=
    List.exists_cons_of_ne_nil (h.parts part List.mem_cons_self).ne_nil
  have hletter : c.isLower = true := hfirst
  rw [joinWith_cons]
  rintro ⟨⟩
  simp only [reservedLeads, List.mem_cons, List.not_mem_nil, or_false] at hlead
  rcases hlead with rfl | rfl <;> cases hletter

end Step

/-! ## Paths, read back -/

theorem isReserved_eq_false {name : List Char}
    (h : ∀ lead ∈ reservedLeads, name.head? ≠ some lead) : isReserved name = false := by
  rw [← Bool.not_eq_true, isReserved_iff]
  rintro ⟨lead, hlead, hname⟩
  exact h lead hlead hname

theorem toList_pathText (steps : List (List (List Char))) :
    (pathText steps).toList = joinWith '.' (steps.map (joinWith '_')) :=
  String.toList_ofList

/-- A path is respelled and read back step by step. -/
theorem application_wire {steps : List (List (List Char))} (hne : steps ≠ [])
    (hsteps : ∀ step ∈ steps, IsStep step) :
    (application (.text (wire (.text (pathText steps))))).toList =
      joinWith '.' (steps.map readBack) := by
  have hlead : ∀ lead ∈ reservedLeads, (pathText steps).toList.head? ≠ some lead := by
    intro lead hlead
    obtain ⟨step, rest, rfl⟩ := List.exists_cons_of_ne_nil hne
    rw [toList_pathText]
    exact head?_joinWith_dot hlead (head?_joinWith (hsteps step List.mem_cons_self) hlead) _
  have hdots : ∀ p ∈ steps.map (joinWith '_'), '.' ∉ p :=
    List.forall_mem_map.mpr fun s hs => dot_not_mem_joinWith (hsteps s hs)
  have hwire : toWire (pathText steps).toList =
      joinWith '.' (steps.map fun s => segmentToWire (joinWith '_' s)) := by
    rw [toWire, isReserved_eq_false hlead, if_neg Bool.false_ne_true, toList_pathText,
      splitOn_joinWith (by simpa using hne) hdots, List.map_map]
    rfl
  have hwireDots : ∀ p ∈ steps.map (fun s => segmentToWire (joinWith '_' s)), '.' ∉ p :=
    List.forall_mem_map.mpr fun s hs hdot => (mem_segmentToWire (hsteps s hs) _ hdot).2 rfl
  have hwireLead : ∀ lead ∈ reservedLeads, (toWire (pathText steps).toList).head? ≠ some lead :=
    fun lead hmem => head?_toWire hmem (hlead lead hmem)
  have htext : (application (.text (wire (.text (pathText steps))))).toList =
      ofWire (toWire (pathText steps).toList) := by
    simp only [application, wire, Value.keyText, Value.display, String.toList_ofList]
  rw [htext, ofWire, isReserved_eq_false hwireLead, if_neg Bool.false_ne_true, hwire,
    splitOn_joinWith (by simpa using hne) hwireDots, List.map_map]
  rfl

/-- A name comes back from its wire spelling exactly when no step of it is `id`, and no step has,
    behind its first part, a single letter directly before a part that begins with a letter. -/
theorem application_wire_eq_iff {steps : List (List (List Char))} (hne : steps ≠ [])
    (hsteps : ∀ step ∈ steps, IsStep step) :
    application (.text (wire (.text (pathText steps)))) = pathText steps ↔
      ∀ step ∈ steps, step ≠ ["id".toList] ∧ ¬HasLoneLetter step.tail := by
  have hback : ∀ p ∈ steps.map readBack, '.' ∉ p :=
    List.forall_mem_map.mpr fun s hs => dot_not_mem_readBack (hsteps s hs)
  have htext : ∀ p ∈ steps.map (joinWith '_'), '.' ∉ p :=
    List.forall_mem_map.mpr fun s hs => dot_not_mem_joinWith (hsteps s hs)
  have hjoin : joinWith '.' (steps.map readBack) = joinWith '.' (steps.map (joinWith '_')) ↔
      steps.map readBack = steps.map (joinWith '_') :=
    ⟨joinWith_injective (by simpa using hne) (by simpa using hne) hback htext, fun h => by rw [h]⟩
  rw [← String.toList_inj, application_wire hne hsteps, toList_pathText, hjoin, List.map_inj_left]
  exact forall₂_congr fun step hstep => readBack_eq_iff (hsteps step hstep)

example : application (.text (wire (.text "song.x_a_b.id"))) = "song.x_ab.object_id" := by
  decide +kernel

/-- A single letter may stand before a part that begins with a digit, and in front of a step. -/
theorem application_wire_eq_artist :
    let steps := [["artist".toList], ["a".toList, "tag".toList, "x".toList, "2b".toList, "c".toList]]
    (steps ≠ [] ∧ ∀ step ∈ steps, IsStep step) ∧ pathText steps = "artist.a_tag_x_2b_c" ∧
      application (.text (wire (.text "artist.a_tag_x_2b_c"))) = "artist.a_tag_x_2b_c" := by
  intro steps
  have hsteps : ∀ step ∈ steps, IsStep step := by
    decide
  have hkept : ∀ step ∈ steps, step ≠ ["id".toList] ∧ ¬HasLoneLetter step.tail := by
    decide
  have htext : pathText steps = "artist.a_tag_x_2b_c" := by
    decide
  have hback := (application_wire_eq_iff (List.cons_ne_nil _ _) hsteps).mpr hkept
  rw [htext] at hback
  exact ⟨⟨List.cons_ne_nil _ _, hsteps⟩, htext, hback⟩

end DocQuery.FieldName
