-- SUMMARY: Texts are written to JSON in ASCII, and every code point of them is read back.
import DocQuery.Json.Writer
import DocQuery.Proofs.Json.Grammar
import Mathlib.Data.List.Basic

/-!
# Texts in JSON

What JSON cannot hold as it is is written by escapes of UTF-16 units, one for each unit,
and readers join the escapes of a pair. So a text is read back as it was written, with every
code point. Only two surrogates that make a pair, but were no character before, are read as
the character of the pair.
-/

namespace DocQuery

namespace Text.CodePoint

/-! ## Surrogates -/

/-- The first code point can end a pair. -/
def startsLow (ps : List CodePoint) : Bool :=
  ps.head?.any fun p => isLowUnit p.number

/-- No two neighbours make a pair. -/
def areApart : List CodePoint → Bool
  | [] => true
  | p :: ps => !(isHighUnit p.number && startsLow ps) && areApart ps

/-- Characters are no surrogates. -/
theorem toNat_bounds (c : Char) : c.toNat < 0xD800 ∨ 0xE000 ≤ c.toNat ∧ c.toNat < 0x110000 :=
  c.valid

theorem isHighUnit_toNat (c : Char) : isHighUnit c.toNat = false := by
  have hc := toNat_bounds c
  simp only [isHighUnit, Bool.and_eq_false_iff, decide_eq_false_iff_not]
  omega

theorem isLowUnit_toNat (c : Char) : isLowUnit c.toNat = false := by
  have hc := toNat_bounds c
  simp only [isLowUnit, Bool.and_eq_false_iff, decide_eq_false_iff_not]
  omega

theorem ofNumber_toNat (c : Char) : ofNumber c.toNat = .char c := by
  have hc := toNat_bounds c
  rw [ofNumber, dif_neg (by omega), Char.ofNat_toNat]

theorem ofNumber_surrogate (n : Fin 0x800) : ofNumber (0xD800 + n) = .surrogate n := by
  have hn := n.isLt
  rw [ofNumber, dif_pos (by omega)]
  exact congrArg surrogate (Fin.ext (by simp))

@[simp] theorem startsLow_char (c : Char) (ps : List CodePoint) :
    startsLow (.char c :: ps) = false :=
  isLowUnit_toNat c

@[simp] theorem areApart_char (c : Char) (ps : List CodePoint) :
    areApart (.char c :: ps) = areApart ps := by
  simp [areApart, number, isHighUnit_toNat]

/-- Characters in front change nothing. -/
theorem areApart_ofText_append (s : String) (ps : List CodePoint) :
    areApart (ofText s ++ ps) = areApart ps := by
  rw [ofText]
  induction s.toList with
  | nil => rfl
  | cons c cs ih => rw [List.map_cons, List.cons_append, areApart_char, ih]

theorem areApart_ofText (s : String) : areApart (ofText s) = true := by
  rw [← List.append_nil (ofText s), areApart_ofText_append]
  rfl

theorem startsLow_append_ofText (ps : List CodePoint) (s : String) :
    startsLow (ps ++ ofText s) = startsLow ps := by
  cases ps with
  | nil =>
    rw [List.nil_append, ofText]
    cases s.toList with
    | nil => rfl
    | cons c cs => rw [List.map_cons, startsLow_char]; rfl
  | cons p ps => rfl

/-- Characters behind change nothing either. -/
theorem areApart_append_ofText (ps : List CodePoint) (s : String) :
    areApart (ps ++ ofText s) = areApart ps := by
  induction ps with
  | nil => exact areApart_ofText s
  | cons p ps ih => rw [List.cons_append, areApart, areApart, ih, startsLow_append_ofText]

end Text.CodePoint

namespace Json

open Text (CodePoint isHighUnit isLowUnit paired)
open Text.CodePoint

/-! ## Hexadecimal digits -/

theorem hexPadded_succ {width n : Nat} (hwidth : 0 < width) : Text.hexPadded (width + 1) n =
    Text.hexPadded width (n / 16) ++ [(n % 16).digitChar] := by
  obtain ⟨width, rfl⟩ : ∃ k, width = k + 1 := ⟨width - 1, by omega⟩
  simp only [Text.hexPadded]
  rcases Nat.lt_or_ge n 16 with hlt | hle
  · rw [Nat.toDigits_of_lt_base hlt, Nat.div_eq_of_lt hlt, Nat.mod_eq_of_lt hlt,
      Nat.toDigits_of_lt_base (by decide : 0 < 16)]
    simp [List.replicate_succ']
  · rw [Nat.toDigits_of_base_le (by decide) hle]
    simp

theorem hexPadded_four {n : Nat} (hn : n < 0x10000) : Text.hexPadded 4 n =
    [(n / 16 / 16 / 16).digitChar, (n / 16 / 16 % 16).digitChar, (n / 16 % 16).digitChar,
      (n % 16).digitChar] := by
  rw [hexPadded_succ (by decide), hexPadded_succ (by decide), hexPadded_succ (by decide),
    Text.hexPadded, Nat.toDigits_of_lt_base (by omega)]
  rfl

theorem hexValue?_digitChar : ∀ d < 16, Text.hexValue? d.digitChar = some d := by
  decide

theorem hex4?_eq_some_iff {ps rest : List CodePoint} {n : Nat} :
    hex4? ps = some (n, rest) ↔ ∃ ds, IsHexUnit ds n ∧ ps = ds ++ rest := by
  constructor
  · intro h
    unfold hex4? at h
    split at h
    · rename_i a b c d more
      simp only [List.foldlM_cons, List.foldlM_nil, Option.bind_eq_bind, Option.bind_eq_some_iff,
        Option.map_eq_some_iff, Option.pure_def, Option.some.injEq, Prod.mk.injEq, Nat.mul_zero,
        Nat.zero_add] at h
      obtain ⟨m, ⟨_, ⟨i, ha, rfl⟩, _, ⟨j, hb, rfl⟩, _, ⟨k, hc, rfl⟩, _, ⟨l, hd, rfl⟩, rfl⟩, rfl,
        rfl⟩ := h
      exact ⟨_, .mk ha hb hc hd, rfl⟩
    · cases h
  · rintro ⟨_, ⟨ha, hb, hc, hd⟩, rfl⟩
    simp [hex4?, ha, hb, hc, hd]

theorem hex4?_append {ds : List CodePoint} {n : Nat} (h : IsHexUnit ds n) (rest : List CodePoint) :
    hex4? (ds ++ rest) = some (n, rest) :=
  hex4?_eq_some_iff.mpr ⟨ds, h, rfl⟩

theorem isHexUnit_hexPadded {n : Nat} (hn : n < 0x10000) :
    IsHexUnit ((Text.hexPadded 4 n).map .char) n := by
  have hvalue : 16 * (16 * (16 * (n / 16 / 16 / 16) + n / 16 / 16 % 16) + n / 16 % 16) + n % 16 =
      n := by
    omega
  have hdigit : ∀ k, Text.hexValue? (k % 16).digitChar = some (k % 16) := fun k =>
    hexValue?_digitChar _ (Nat.mod_lt k (by decide))
  have hunit := IsHexUnit.mk (hexValue?_digitChar _ (by omega : n / 16 / 16 / 16 < 16))
    (hdigit (n / 16 / 16)) (hdigit (n / 16)) (hdigit n)
  rw [hvalue] at hunit
  rw [hexPadded_four hn]
  exact hunit

/-! ## Escapes -/

/-- What follows is no escape of the unit that ends a pair. -/
def NoLowNext (rest : List CodePoint) : Prop :=
  ∀ more, rest = .char '\\' :: .char 'u' :: more →
    ∃ n after, hex4? more = some (n, after) ∧ isLowUnit n = false

/-- A unit that begins no pair is a code point of its own. -/
theorem unitEscape?_unit {ds rest : List CodePoint} {n : Nat} (hn : IsHexUnit ds n)
    (h : isHighUnit n = true → NoLowNext rest) :
    unitEscape? (ds ++ rest) = some (.ofNumber n, rest) := by
  simp only [unitEscape?, hex4?_append hn, Option.bind_eq_bind, Option.bind_some]
  split
  · rename_i more hhigh
    obtain ⟨m, after, hmore, hlow⟩ := h hhigh more rfl
    simp [hmore, hlow]
  · rfl

theorem unitEscape?_units {ds es : List CodePoint} {n m : Nat} (hn : IsHexUnit ds n)
    (hm : IsHexUnit es m) (hhigh : isHighUnit n = true) (hlow : isLowUnit m = true)
    (rest : List CodePoint) :
    unitEscape? (ds ++ .char '\\' :: .char 'u' :: (es ++ rest)) =
      some (paired n m, rest) := by
  simp only [unitEscape?, hex4?_append hn, hex4?_append hm, hhigh, hlow, Option.bind_eq_bind,
    Option.bind_some, if_true]

/-- The ways to write a character: as a letter after a mark, as itself, and by its units. -/
inductive IsEscape (c : Char) : List Char → Prop
  | letter {b : Char} (hb : b ≠ 'u') (hascii : b.toNat < 128)
    (hread : ∀ rest, escape? (.char b :: rest) = some (.char c, rest)) : IsEscape c ['\\', b]
  | plain (hquote : c ≠ '"') (hmark : c ≠ '\\') (hlow : ' ' ≤ c) (hhigh : c ≤ '~') : IsEscape c [c]
  | byUnits : IsEscape c ((units c.toNat).flatMap unitEscape)

theorem isEscape_escaped (c : Char) : IsEscape c (escaped c) := by
  have hletter : ∀ {a b : Char}, c = a → b ≠ 'u' → b.toNat < 128 →
      (∀ rest, escape? (.char b :: rest) = some (.char a, rest)) → IsEscape c ['\\', b] :=
    fun ha hb hascii hread => .letter hb hascii (ha ▸ hread)
  unfold escaped
  split
  · rename_i h
    rcases Bool.or_eq_true _ _ ▸ h with h | h <;> obtain rfl := of_decide_eq_true h <;>
      exact .letter (by decide) (by decide) fun _ => rfl
  rename_i hmarks
  split
  · exact hletter ‹_› (by decide) (by decide) fun _ => rfl
  split
  · exact hletter ‹_› (by decide) (by decide) fun _ => rfl
  split
  · exact hletter ‹_› (by decide) (by decide) fun _ => rfl
  split
  · exact hletter ‹_› (by decide) (by decide) fun _ => rfl
  split
  · exact hletter ‹_› (by decide) (by decide) fun _ => rfl
  split
  · rename_i hplain
    simp only [Bool.or_eq_true, decide_eq_true_eq, not_or] at hmarks
    simp only [Bool.and_eq_true, decide_eq_true_eq] at hplain
    exact .plain hmarks.1 hmarks.2 hplain.1 hplain.2
  · exact .byUnits

/-- The code points in front of others are written as one escape, or as two that readers join,
    and are read as `p`. -/
def AreEscape (cs : List Char) (p : CodePoint) (rest : List CodePoint) : Prop :=
  ∃ after, cs.map .char ++ rest = .char '\\' :: after ∧ escape? after = some (p, rest)

theorem areEscape_unit {n : Nat} (hn : n < 0x10000) {rest : List CodePoint}
    (h : isHighUnit n = true → NoLowNext rest) : AreEscape (unitEscape n) (.ofNumber n) rest :=
  ⟨_, rfl, unitEscape?_unit (isHexUnit_hexPadded hn) h⟩

theorem areEscape_pair {n m : Nat} (hn : n < 0x10000) (hm : m < 0x10000)
    (hhigh : isHighUnit n = true) (hlow : isLowUnit m = true) (rest : List CodePoint) :
    AreEscape ([n, m].flatMap unitEscape) (paired n m) rest := by
  refine ⟨.char 'u' :: ((Text.hexPadded 4 n).map CodePoint.char ++ .char '\\' :: .char 'u' ::
    ((Text.hexPadded 4 m).map CodePoint.char ++ rest)), ?_, ?_⟩
  · simp [unitEscape]
  · exact unitEscape?_units (isHexUnit_hexPadded hn) (isHexUnit_hexPadded hm) hhigh hlow rest

/-- The units of a character are read as the character. -/
theorem areEscape_units (c : Char) (rest : List CodePoint) :
    AreEscape ((units c.toNat).flatMap unitEscape) (.char c) rest := by
  have hc := toNat_bounds c
  unfold units
  split
  · rename_i hsmall
    have hread : AreEscape (unitEscape c.toNat) (.ofNumber c.toNat) rest :=
      areEscape_unit hsmall fun h => by
        rw [isHighUnit_toNat] at h
        cases h
    rw [ofNumber_toNat] at hread
    rwa [List.flatMap_singleton]
  · rename_i hlarge
    have hhigh : isHighUnit (0xD800 + (c.toNat - 0x10000) / 0x400) = true := by
      simp only [isHighUnit, Bool.and_eq_true, decide_eq_true_eq]
      omega
    have hlow : isLowUnit (0xDC00 + (c.toNat - 0x10000) % 0x400) = true := by
      simp only [isLowUnit, Bool.and_eq_true, decide_eq_true_eq]
      omega
    have hread := areEscape_pair (by omega) (by omega) hhigh hlow rest
    have hsum : 0x10000 + (0xD800 + (c.toNat - 0x10000) / 0x400 - 0xD800) * 0x400 +
        (0xDC00 + (c.toNat - 0x10000) % 0x400 - 0xDC00) = c.toNat := by
      omega
    rwa [paired, hsum, ofNumber_toNat] at hread

/-! ## Texts -/

/-- An escape is read as its code point. -/
theorem textPoints?_of_areEscape {cs : List Char} {p : CodePoint} {rest : List CodePoint}
    (h : AreEscape cs p rest) (fuel : Nat) : textPoints? (fuel + 1) (cs.map .char ++ rest) =
      (textPoints? fuel rest).map fun (ps, rest) => (p :: ps, rest) := by
  obtain ⟨after, hcs, hread⟩ := h
  simp only [hcs, textPoints?, hread, Option.bind_eq_bind, Option.bind_some]
  cases textPoints? fuel rest <;> rfl

/-- A character in ASCII that is no control stands for itself. -/
theorem textPoints?_plain {c : Char} (hquote : c ≠ '"') (hmark : c ≠ '\\') (hc : ' ' ≤ c)
    (fuel : Nat) (rest : List CodePoint) : textPoints? (fuel + 1) (.char c :: rest) =
      (textPoints? fuel rest).map fun (ps, rest) => (.char c :: ps, rest) := by
  have hcontrol : isControl (.char c) = false := by
    rw [isControl, decide_eq_false_iff_not, Nat.not_lt]
    exact hc
  rw [textPoints?]
  · simp only [hcontrol]
    cases textPoints? fuel rest <;> rfl
  · intro heq
    cases heq
    exact hquote rfl
  · intro heq
    cases heq
    exact hmark rfl

theorem IsEscape.read {c : Char} {cs : List Char} (h : IsEscape c cs) (fuel : Nat)
    (rest : List CodePoint) : textPoints? (fuel + 1) (cs.map .char ++ rest) =
      (textPoints? fuel rest).map fun (ps, rest) => (.char c :: ps, rest) := by
  cases h with
  | letter _ _ hread => exact textPoints?_of_areEscape ⟨_, rfl, hread rest⟩ fuel
  | plain hquote hmark hlow _ => exact textPoints?_plain hquote hmark hlow fuel rest
  | byUnits => exact textPoints?_of_areEscape (areEscape_units c rest) fuel

theorem noLowNext_unitEscape {n : Nat} (hn : n < 0x10000) (hlow : isLowUnit n = false)
    (rest : List CodePoint) : NoLowNext ((unitEscape n).map .char ++ rest) := by
  intro more heq
  cases heq
  exact ⟨n, rest, hex4?_append (isHexUnit_hexPadded hn) rest, hlow⟩

theorem noLowNext_of_ne {c : Char} (hc : c ≠ '\\') (rest : List CodePoint) :
    NoLowNext (.char c :: rest) := by
  intro more heq
  cases heq
  exact absurd rfl hc

theorem IsEscape.noLowNext {c : Char} {cs : List Char} (h : IsEscape c cs)
    (rest : List CodePoint) : NoLowNext (cs.map .char ++ rest) := by
  have hc := toNat_bounds c
  cases h with
  | letter hb _ _ =>
    intro more heq
    cases heq
    exact absurd rfl hb
  | plain _ hmark _ _ => exact noLowNext_of_ne hmark rest
  | byUnits =>
    unfold units
    split
    · rename_i hsmall
      rw [List.flatMap_singleton]
      exact noLowNext_unitEscape hsmall (isLowUnit_toNat c) rest
    · have hlow : isLowUnit (0xD800 + (c.toNat - 0x10000) / 0x400) = false := by
        simp only [isLowUnit, Bool.and_eq_false_iff, decide_eq_false_iff_not]
        omega
      rw [List.flatMap_cons, List.map_append, List.append_assoc]
      exact noLowNext_unitEscape (by omega) hlow _

/-- What follows a surrogate is no escape that could make a pair with it, if the code points
    make none. -/
theorem noLowNext_quoted {ps : List CodePoint} (h : startsLow ps = false) (rest : List CodePoint) :
    NoLowNext ((ps.flatMap escapedPoint).map .char ++ .char '"' :: rest) := by
  cases ps with
  | nil => exact noLowNext_of_ne (by decide) rest
  | cons p ps =>
    rw [List.flatMap_cons, List.map_append, List.append_assoc]
    cases p with
    | char c => exact (isEscape_escaped c).noLowNext _
    | surrogate n =>
      have hn := n.isLt
      exact noLowNext_unitEscape (by omega : 0xD800 + n.val < 0x10000) h _

theorem textPoints?_escapedPoint {p : CodePoint} {rest : List CodePoint}
    (h : isHighUnit p.number = true → NoLowNext rest) (fuel : Nat) :
    textPoints? (fuel + 1) ((escapedPoint p).map .char ++ rest) =
      (textPoints? fuel rest).map fun (ps, rest) => (p :: ps, rest) := by
  cases p with
  | char c => exact (isEscape_escaped c).read fuel rest
  | surrogate n =>
    have hread := areEscape_unit (by omega : 0xD800 + n.val < 0x10000) h
    rw [ofNumber_surrogate] at hread
    exact textPoints?_of_areEscape hread fuel

/-- A row of code points without neighbours that make a pair is read as it was written. -/
theorem textPoints?_quoted {ps : List CodePoint} (h : areApart ps = true) {fuel : Nat}
    (hfuel : ps.length < fuel) (rest : List CodePoint) :
    textPoints? fuel ((ps.flatMap escapedPoint).map .char ++ .char '"' :: rest) =
      some (ps, rest) := by
  induction ps generalizing fuel with
  | nil =>
    obtain ⟨fuel, rfl⟩ : ∃ k, fuel = k + 1 := ⟨fuel - 1, by omega⟩
    rfl
  | cons p ps ih =>
    obtain ⟨fuel, rfl⟩ : ∃ k, fuel = k + 1 := ⟨fuel - 1, by omega⟩
    simp only [areApart, Bool.and_eq_true, Bool.not_eq_true', Bool.and_eq_false_iff] at h
    have hnext : isHighUnit p.number = true →
        NoLowNext ((ps.flatMap escapedPoint).map .char ++ .char '"' :: rest) := fun hhigh =>
      noLowNext_quoted (h.1.resolve_left (by simp [hhigh])) rest
    rw [List.flatMap_cons, List.map_append, List.append_assoc, textPoints?_escapedPoint hnext,
      ih h.2 (Nat.lt_of_succ_lt_succ hfuel)]
    rfl

/-! ## Characters of texts -/

theorem length_unitEscape_pos (n : Nat) : 0 < (unitEscape n).length :=
  Nat.succ_pos _

theorem IsEscape.length_pos {c : Char} {cs : List Char} (h : IsEscape c cs) : 0 < cs.length := by
  have hunits : ∀ n ns, 0 < ((n :: ns).flatMap unitEscape).length := by
    intro n ns
    rw [List.flatMap_cons, List.length_append]
    exact Nat.add_pos_left (length_unitEscape_pos n) _
  cases h with
  | letter _ _ _ => exact Nat.succ_pos _
  | plain _ _ _ _ => exact Nat.succ_pos _
  | byUnits =>
    unfold units
    split <;> exact hunits _ _

theorem length_le_escaped (ps : List CodePoint) :
    ps.length ≤ (ps.flatMap escapedPoint).length := by
  have hpoint : ∀ p, 0 < (escapedPoint p).length := by
    intro p
    cases p with
    | char c => exact (isEscape_escaped c).length_pos
    | surrogate n => exact length_unitEscape_pos _
  induction ps with
  | nil => exact Nat.le_refl _
  | cons p ps ih =>
    have hhead := hpoint p
    rw [List.flatMap_cons, List.length_append, List.length_cons]
    omega

theorem toNat_digitChar_lt : ∀ d < 16, d.digitChar.toNat < 128 := by
  decide

theorem toNat_lt_of_mem_unitEscape {n : Nat} (hn : n < 0x10000) :
    ∀ c ∈ unitEscape n, c.toNat < 128 := by
  have hlast : ∀ k, (k % 16).digitChar.toNat < 128 := fun k =>
    toNat_digitChar_lt _ (Nat.mod_lt k (by decide))
  rw [unitEscape, hexPadded_four hn]
  simp only [List.forall_mem_cons, List.not_mem_nil, false_imp_iff, forall_const, and_true]
  exact ⟨by decide, by decide, toNat_digitChar_lt _ (by omega), hlast _, hlast _, hlast _⟩

theorem toNat_lt_of_all {cs : List Char} (h : cs.all (·.toNat < 128) = true) :
    ∀ c ∈ cs, c.toNat < 128 :=
  fun c hc => of_decide_eq_true (List.all_eq_true.mp h c hc)

theorem IsEscape.ascii {c : Char} {cs : List Char} (h : IsEscape c cs) :
    ∀ a ∈ cs, a.toNat < 128 := by
  have hc := toNat_bounds c
  cases h with
  | letter _ hascii _ =>
    exact List.forall_mem_cons.mpr ⟨by decide, List.forall_mem_singleton.mpr hascii⟩
  | plain _ _ _ hhigh =>
    exact List.forall_mem_singleton.mpr (Nat.lt_of_le_of_lt hhigh (by decide : '~'.toNat < 128))
  | byUnits =>
    have hunits : ∀ n ∈ units c.toNat, n < 0x10000 := by
      unfold units
      split
      · exact List.forall_mem_singleton.mpr (by assumption)
      · refine List.forall_mem_cons.mpr ⟨?_, List.forall_mem_singleton.mpr ?_⟩ <;> omega
    intro a ha
    obtain ⟨n, hn, ha⟩ := List.mem_flatMap.mp ha
    exact toNat_lt_of_mem_unitEscape (hunits n hn) a ha

/-- Texts are written in ASCII. -/
theorem toNat_lt_of_mem_quoted (ps : List CodePoint) : ∀ c ∈ quoted ps, c.toNat < 128 := by
  have hpoint : ∀ p, ∀ c ∈ escapedPoint p, c.toNat < 128 := by
    intro p
    cases p with
    | char c => exact (isEscape_escaped c).ascii
    | surrogate n =>
      have hn := n.isLt
      exact toNat_lt_of_mem_unitEscape (by omega : 0xD800 + n.val < 0x10000)
  intro c hc
  rcases List.mem_cons.mp hc with rfl | hc
  · decide
  · rcases List.mem_append.mp hc with hc | hc
    · obtain ⟨p, _, hc⟩ := List.mem_flatMap.mp hc
      exact hpoint p c hc
    · obtain rfl := List.mem_singleton.mp hc
      decide

end Json

end DocQuery
