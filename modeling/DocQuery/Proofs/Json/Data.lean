-- SUMMARY: Plain data is written as JSON text in ASCII, unless its numbers are too long, and readers with wide enough limits read it back as it was.
import DocQuery.Json.Lossless
import DocQuery.Proofs.Assoc
import DocQuery.Proofs.Except
import DocQuery.Proofs.Json.Text
import DocQuery.Proofs.Number.DigitOrder
import DocQuery.Proofs.Selection
import DocQuery.Proofs.Value.Digits
import DocQuery.Proofs.Value.SortKey
import Mathlib.Data.List.TakeWhile

/-!
# Plain data in JSON

Plain data is null, truth values, whole numbers, texts, lists, and mappings whose keys are
different texts. It can be written unless a number in it has too many digits, and its text is
read back as the same data. How far a reader has to go is a matter of the data: of how deep it
nests, and of how many digits its numbers have.
-/

namespace DocQuery.Json

open Text (CodePoint)
open Text.CodePoint (ofText areApart areApart_ofText)
open Decimal (natText)

/-! ## Plain data -/

/-- Plain data with whole numbers of at most `k` digits, and with texts whose code points make no
    pairs. -/
inductive IsData (k : Nat) : Value → Prop
  | null : IsData k .null
  | bool (b : Bool) : IsData k (.bool b)
  | int (n : Int) (h : (Value.int n).digits ≤ k) : IsData k (.int n)
  | text (s : String) : IsData k (.text s)
  | brokenText (t : Text.BrokenText) (h : areApart t.points = true) : IsData k (.brokenText t)
  | list {xs : List Value} (h : ∀ x ∈ xs, IsData k x) : IsData k (.list xs)
  | object {fields : List (String × Value)} (hkeys : (Assoc.keys fields).Nodup)
    (h : ∀ e ∈ fields, IsData k e.2) : IsData k (.object fields)

theorem IsData.digits_le {k : Nat} {v : Value} (h : IsData k v) : v.digits ≤ k := by
  induction h with
  | int n h => exact h
  | list _ ih => exact Value.digits_list_le_iff.mpr ih
  | object _ _ ih => exact Value.digits_object_le_iff.mpr ih
  | _ => exact Nat.zero_le k

/-- A value that stands in `depth` others is within the limits. -/
structure Limits.Admits (l : Limits) (depth : Nat) (v : Value) : Prop where
  depth : depth + Lossless.depth v ≤ l.depth
  digits : v.digits ≤ l.digits

/-! ## Numbers -/

/-- What follows is no part of a number. -/
def EndsNumber (rest : List CodePoint) : Prop :=
  ∀ c more, rest = .char c :: more → isNumeric c = false

theorem endsNumber_nil : EndsNumber [] :=
  nofun

theorem endsNumber_cons {c : Char} (hc : isNumeric c = false) (rest : List CodePoint) :
    EndsNumber (.char c :: rest) := by
  rintro _ _ ⟨⟩
  exact hc

theorem spanNumeric_append {cs : List Char} (hcs : ∀ c ∈ cs, isNumeric c = true)
    {rest : List CodePoint} (hrest : EndsNumber rest) :
    spanNumeric (cs.map .char ++ rest) = (cs, rest) := by
  induction cs with
  | nil =>
    cases rest with
    | nil => rfl
    | cons p rest =>
      cases p with
      | char c => simp [spanNumeric, hrest c rest rfl]
      | surrogate n => rfl
  | cons c cs ih =>
    obtain ⟨hc, hcs⟩ := List.forall_mem_cons.mp hcs
    simp [spanNumeric, hc, ih hcs]

/-- Only zero is written with a zero in front. -/
theorem head?_natText : ∀ n, 0 < n → (natText n).head? ≠ some '0' := by
  have hdigit : ∀ d < 10, 0 < d → d.digitChar ≠ '0' := by
    decide
  intro n
  induction n using Nat.strongRecOn with
  | ind n ih =>
    intro hn
    rcases Nat.lt_or_ge n 10 with hlt | hle
    · rw [natText, Nat.toDigits_of_lt_base hlt]
      simpa using hdigit n hlt hn
    · obtain ⟨c, cs, hcs, _⟩ := Decimal.exists_digit_natText (n / 10)
      have hhead := ih (n / 10) (by omega) (by omega)
      rw [hcs] at hhead
      rw [natText, Nat.toDigits_of_base_le (by decide) hle]
      show (natText (n / 10) ++ _).head? ≠ _
      rw [hcs]
      exact hhead

theorem spanWhole_natText (n : Nat) : spanWhole (natText n) = (natText n, []) := by
  have hdigits : ∀ c ∈ natText n, c.isDigit = true := fun c => Decimal.isDigit_of_mem_natText
  unfold spanWhole
  split
  · rename_i rest heq
    rcases Nat.eq_zero_or_pos n with rfl | hn
    · cases heq
      rfl
    · exact absurd (congrArg List.head? heq) (head?_natText n hn)
  · rw [Decimal.spanDigits, List.takeWhile_eq_self_iff.mpr hdigits,
      List.dropWhile_eq_nil_iff.mpr hdigits]

theorem ofDigits_natText (n : Nat) : Decimal.ofDigits 0 (natText n) = n :=
  Nat.ofDigitChars_toDigits (by decide) (by decide)

/-- A whole number in decimal. -/
def intText : Int → List Char
  | .ofNat n => natText n
  | .negSucc n => '-' :: natText (n + 1)

theorem toList_number (n : Int) : (number (.int n)).toList = intText n := by
  cases n with
  | ofNat n => exact Nat.toList_repr
  | negSucc n =>
    show ("-" ++ (n + 1).repr).toList = _
    rw [String.toList_append, Nat.toList_repr]
    rfl

theorem numberOf_natText {l : Limits} {n : Nat} (h : (natText n).length ≤ l.digits)
    (negative : Bool) : numberOf l negative (natText n) [] [] =
      .ok (.int (Number.signed negative n)) := by
  simp [numberOf, Nat.not_lt_of_le h, ofDigits_natText]

theorem isEmpty_natText (n : Nat) : (natText n).isEmpty = false := by
  obtain ⟨c, cs, hcs, _⟩ := Decimal.exists_digit_natText n
  rw [hcs]
  rfl

theorem readNumber_intText {l : Limits} {n : Int} (h : (natText n.natAbs).length ≤ l.digits) :
    readNumber l (intText n) = .ok (.int n, []) := by
  cases n with
  | ofNat n =>
    replace h : (natText n).length ≤ l.digits := h
    have hsign : ∀ rest, natText n ≠ '-' :: rest := by
      intro rest heq
      have hmark : '-' ∈ natText n := heq ▸ List.mem_cons_self
      exact absurd (Decimal.isDigit_of_mem_natText hmark) (by decide)
    simp only [intText, readNumber, spanWhole_natText, isEmpty_natText, spanFraction, spanExponent,
      numberOf_natText h]
    rfl
  | negSucc n =>
    replace h : (natText (n + 1)).length ≤ l.digits := h
    simp only [intText, readNumber, spanWhole_natText, isEmpty_natText, spanFraction, spanExponent,
      numberOf_natText h]
    rfl

theorem mem_intText {n : Int} : ∀ c ∈ intText n, c = '-' ∨ c.isDigit = true := by
  have hdigits : ∀ m, ∀ c ∈ natText m, c = '-' ∨ c.isDigit = true := fun m c hc =>
    .inr (Decimal.isDigit_of_mem_natText hc)
  cases n with
  | ofNat n => exact hdigits n
  | negSucc n => exact List.forall_mem_cons.mpr ⟨.inl rfl, hdigits (n + 1)⟩

theorem exists_intText (n : Int) : ∃ c cs, intText n = c :: cs := by
  cases n with
  | ofNat n =>
    obtain ⟨c, cs, hcs, _⟩ := Decimal.exists_digit_natText n
    exact ⟨c, cs, hcs⟩
  | negSucc n => exact ⟨'-', _, rfl⟩

theorem isNumeric_of_mem_intText {n : Int} : ∀ c ∈ intText n, isNumeric c = true := by
  intro c hc
  rcases mem_intText c hc with rfl | hc
  · decide
  · simp [isNumeric, hc]

theorem readNumeric_intText {l : Limits} {n : Int} (h : (natText n.natAbs).length ≤ l.digits)
    {rest : List CodePoint} (hrest : EndsNumber rest) :
    readNumeric l ((intText n).map .char ++ rest) = .ok (.int n, rest) := by
  simp only [readNumeric, spanNumeric_append isNumeric_of_mem_intText hrest]
  rw [readNumber_intText h]
  rfl

/-- A number is no word. -/
theorem word?_intText (n : Int) (rest : List CodePoint) :
    word? ((intText n).map .char ++ rest) = none := by
  have hne : ∀ {c d : Char}, c.isDigit = true → d.isDigit = false → d ≠ c := fun hc hd =>
    (Decimal.ne_of_isDigit hc hd).symm
  cases n with
  | ofNat n =>
    obtain ⟨c, cs, hcs, hc⟩ := Decimal.exists_digit_natText n
    simp [intText, hcs, word?, words, ofText, hne hc]
  | negSucc n =>
    obtain ⟨c, cs, hcs, hc⟩ := Decimal.exists_digit_natText (n + 1)
    simp [intText, hcs, word?, words, ofText, hne hc]

/-! ## Values -/

/-- The characters are JSON text of a value: they are what is written for it, if that can be
    written, in ASCII, and they are read as it, whatever follows that is no part of a number. -/
structure IsTextOf (cs : List Char) (v : Value) : Prop where
  written : v.digits ≤ Whole.maxDigits → ∀ depth, write .compact depth v = .ok (String.ofList cs)
  ascii : ∀ c ∈ cs, c.toNat < 128
  start : ∃ c more, cs = c :: more ∧ isSpace (.char c) = false ∧ c ≠ ']'
  read : ∀ {l : Limits} {depth fuel : Nat} {rest : List CodePoint}, l.Admits depth v →
    2 * cs.length ≤ fuel → EndsNumber rest →
      readValue l depth fuel (cs.map .char ++ rest) = .ok (v, rest)

theorem isTextOf_null : IsTextOf "null".toList .null where
  written _ _ := rfl
  ascii := toNat_lt_of_all rfl
  start := ⟨'n', _, rfl, by decide, by decide⟩
  read {l depth fuel rest} _ hfuel _ := by
    obtain ⟨fuel, rfl⟩ : ∃ k, fuel = k + 1 := ⟨fuel - 1, by simp at hfuel; omega⟩
    rfl

theorem isTextOf_bool (b : Bool) : IsTextOf (truth b).toList (.bool b) := by
  cases b <;>
  · refine ⟨fun _ _ => rfl, toNat_lt_of_all rfl, ⟨_, _, rfl, by decide, by decide⟩, ?_⟩
    intro l depth fuel rest _ hfuel _
    obtain ⟨fuel, rfl⟩ : ∃ k, fuel = k + 1 := ⟨fuel - 1, by simp [truth] at hfuel; omega⟩
    rfl

/-- Where no quote or bracket is at the front, a value is a word or a number. -/
theorem readValue_plain {l : Limits} {depth fuel : Nat} {p : CodePoint} {ps : List CodePoint}
    (hquote : p ≠ .char '"') (hlist : p ≠ .char '[') (hobject : p ≠ .char '\x7b') :
    readValue l depth (fuel + 1) (p :: ps) =
      (word? (p :: ps)).elim (readNumeric l (p :: ps)) .ok := by
  rw [readValue]
  · rintro _ heq
    exact hquote (List.cons.inj heq).1
  · rintro _ heq
    exact hlist (List.cons.inj heq).1
  · rintro _ heq
    exact hobject (List.cons.inj heq).1

theorem isTextOf_int (n : Int) : IsTextOf (intText n) (.int n) := by
  obtain ⟨c, more, hcs⟩ := exists_intText n
  have hc := mem_intText c (hcs ▸ List.mem_cons_self)
  have hne : ∀ d, d ≠ '-' → d.isDigit = false → c ≠ d := by
    rintro _ hmark hdigit rfl
    rcases hc with rfl | hc
    · exact hmark rfl
    · exact Decimal.ne_of_isDigit hc hdigit rfl
  have hspace : isSpace (.char c) = false := by
    simp only [isSpace, List.any_cons, List.any_nil, Bool.or_false, Bool.or_eq_false_iff,
      beq_eq_false_iff_ne, ne_eq, CodePoint.char.injEq]
    exact ⟨hne _ (by decide) (by decide), hne _ (by decide) (by decide),
      hne _ (by decide) (by decide), hne _ (by decide) (by decide)⟩
  refine ⟨fun hdigits depth => ?_, fun a ha => ?_,
    ⟨c, more, hcs, hspace, hne _ (by decide) (by decide)⟩, ?_⟩
  · rw [write, ← toList_number, String.ofList_toList, Value.whenWritable_of_le hdigits]
  · rcases mem_intText a ha with rfl | ha
    · decide
    · have hle := (Char.isDigit_iff_toNat.mp ha).2
      exact Nat.lt_of_le_of_lt hle (by decide)
  · intro l depth fuel rest hadmits hfuel hrest
    obtain ⟨fuel, rfl⟩ : ∃ k, fuel = k + 1 := ⟨fuel - 1, by simp [hcs] at hfuel; omega⟩
    have hvalue : readValue l depth (fuel + 1) ((intText n).map .char ++ rest) =
        (word? ((intText n).map .char ++ rest)).elim
          (readNumeric l ((intText n).map .char ++ rest)) .ok := by
      have hpoint : ∀ d, d ≠ '-' → d.isDigit = false → CodePoint.char c ≠ .char d :=
        fun d hmark hd heq => hne d hmark hd (CodePoint.char.inj heq)
      rw [hcs]
      exact readValue_plain (hpoint _ (by decide) (by decide)) (hpoint _ (by decide) (by decide))
        (hpoint _ (by decide) (by decide))
    rw [hvalue, word?_intText, Option.elim_none, readNumeric_intText hadmits.digits hrest]

theorem map_quoted (ps rest : List CodePoint) : (quoted ps).map .char ++ rest =
    .char '"' :: ((ps.flatMap escapedPoint).map .char ++ .char '"' :: rest) := by
  simp [quoted]

theorem readText_quoted {ps : List CodePoint} (h : areApart ps = true) {fuel : Nat}
    (hfuel : (quoted ps).length ≤ fuel) (rest : List CodePoint) :
    readText fuel ((ps.flatMap escapedPoint).map .char ++ .char '"' :: rest) =
      .ok (.ofPoints ps, rest) := by
  have hlength := length_le_escaped ps
  simp only [quoted, List.length_cons, List.length_append, List.length_nil] at hfuel
  rw [readText, textPoints?_quoted h (by omega)]

/-- A row of code points is written between quotes. -/
theorem isTextOf_quoted {v : Value} {ps : List CodePoint} (hv : .ofPoints ps = v)
    (hwrite : ∀ depth, write .compact depth v = .ok (String.ofList (quoted ps)))
    (h : areApart ps = true) : IsTextOf (quoted ps) v where
  written _ := hwrite
  ascii := toNat_lt_of_mem_quoted ps
  start := ⟨'"', _, rfl, by decide, by decide⟩
  read {l depth fuel rest} _ hfuel _ := by
    have hpos : 0 < (quoted ps).length := Nat.succ_pos _
    obtain ⟨fuel, rfl⟩ : ∃ k, fuel = k + 1 := ⟨fuel - 1, by omega⟩
    rw [map_quoted, readValue, readText_quoted h (by omega), hv]

theorem ofPoints_ofText (s : String) : Value.ofPoints (ofText s) = .text s := by
  have hwhole : ¬ (ofText s).any CodePoint.isSurrogate = true := by
    simp [ofText, CodePoint.isSurrogate]
  rw [Value.ofPoints, dif_neg hwhole, CodePoint.toText_ofText]

theorem ofPoints_points (t : Text.BrokenText) : Value.ofPoints t.points = .brokenText t :=
  dif_pos t.broken

/-- A row of code points is found again in its value. -/
theorem points?_ofPoints (ps : List CodePoint) : (Value.ofPoints ps).points? = some ps := by
  unfold Value.ofPoints
  split
  · rfl
  · rename_i hwhole
    have hchars : ∀ p ∈ ps, CodePoint.char p.shown = p := by
      intro p hp
      cases p with
      | char c => rfl
      | surrogate n => exact absurd (List.any_eq_true.mpr ⟨_, hp, rfl⟩) hwhole
    simpa [Value.points?, ofText, CodePoint.toText, Function.comp_def] using
      List.map_congr_left hchars

theorem ofPoints_beq (ps qs : List CodePoint) :
    (Value.ofPoints ps == Value.ofPoints qs) = (ps == qs) := by
  rw [(Value.comparesAs_of_points (points?_ofPoints ps) (points?_ofPoints qs)).equal,
    Bool.eq_iff_iff, beq_iff_eq, beq_iff_eq, SortKey.comparePoints_eq_eq_iff]

/-! ## Lists and mappings -/

/-- Texts with commas and blanks between them. -/
def joined (css : List (List Char)) : List Char :=
  ", ".toList.intercalate css

theorem joined_cons_cons (cs cs' : List Char) (css : List (List Char)) :
    joined (cs :: cs' :: css) = cs ++ ',' :: ' ' :: joined (cs' :: css) := by
  rw [joined, List.intercalate_cons_cons, List.append_assoc]
  rfl

theorem exists_joined_cons (c : Char) (more : List Char) (css : List (List Char)) :
    ∃ more', joined ((c :: more) :: css) = c :: more' := by
  cases css with
  | nil => exact ⟨more, List.intercalate_singleton⟩
  | cons cs css => exact ⟨_, joined_cons_cons ..⟩

theorem toNat_lt_of_mem_joined {css : List (List Char)} (h : ∀ cs ∈ css, ∀ c ∈ cs, c.toNat < 128) :
    ∀ c ∈ joined css, c.toNat < 128 := by
  induction css with
  | nil => exact nofun
  | cons cs css ih =>
    obtain ⟨hhead, hrest⟩ := List.forall_mem_cons.mp h
    cases css with
    | nil =>
      rw [joined, List.intercalate_singleton]
      exact hhead
    | cons cs' css =>
      rw [joined_cons_cons, List.forall_mem_append]
      exact ⟨hhead, List.forall_mem_cons.mpr ⟨by decide,
        List.forall_mem_cons.mpr ⟨by decide, ih hrest⟩⟩⟩

/-- Texts between brackets. -/
theorem toNat_lt_of_mem_bracketed {left right : Char} (hleft : left.toNat < 128)
    (hright : right.toNat < 128) {css : List (List Char)}
    (h : ∀ cs ∈ css, ∀ c ∈ cs, c.toNat < 128) :
    ∀ c ∈ left :: (joined css ++ [right]), c.toNat < 128 := by
  rw [List.forall_mem_cons, List.forall_mem_append]
  exact ⟨hleft, toNat_lt_of_mem_joined h, List.forall_mem_singleton.mpr hright⟩

theorem enclosed_compact (depth : Nat) (left right : String) (css : List (List Char)) :
    Layout.compact.enclosed depth left right (css.map String.ofList) =
      String.ofList (left.toList ++ (joined css ++ right.toList)) := by
  have htexts : (css.map String.ofList).map String.toList = css := by
    simp [Function.comp_def]
  rw [String.ext_iff, String.toList_ofList]
  cases css with
  | nil => simp [Layout.enclosed, joined]
  | cons cs css =>
    rw [Layout.enclosed, if_neg (by simp)]
    simp only [Layout.lineBreak, Layout.separator, String.toList_append, String.toList_intercalate,
      htexts, joined, String.toList_empty, List.append_nil, List.append_assoc]

theorem skipSpace_of_start {p : CodePoint} (hp : isSpace p = false) (ps : List CodePoint) :
    skipSpace (p :: ps) = p :: ps := by
  simp [skipSpace, hp]

theorem writeItems_eq_mapM (l : Layout) (depth : Nat) (xs : List Value) :
    writeItems l depth xs = xs.mapM (write l depth) := by
  induction xs with
  | nil => rfl
  | cons x xs ih =>
    rw [writeItems, List.mapM_cons, ih]
    rfl

/-- The JSON text of an entry, its key before its value. -/
def writeEntry (l : Layout) (depth : Nat) (e : Value × Value) : Except Error String := do
  let name ← key e.1
  let y ← write l depth e.2
  .ok (name ++ ": " ++ y)

theorem writeEntry_of_key {l : Layout} {depth : Nat} {k v : Value} {name : String}
    (h : key k = .ok name) :
    writeEntry l depth (k, v) = (write l depth v).map (name ++ ": " ++ ·) := by
  rw [writeEntry, h]
  show (write l depth v >>= fun y => .ok (name ++ ": " ++ y)) = _
  cases write l depth v <;> rfl

theorem writeEntries_eq_mapM (l : Layout) (depth : Nat) (es : List (Value × Value)) :
    writeEntries l depth es = es.mapM (writeEntry l depth) := by
  induction es with
  | nil => rfl
  | cons e es ih =>
    rw [writeEntries, List.mapM_cons, ih, writeEntry]
    cases key e.1 with
    | error _ => rfl
    | ok name => cases write l depth e.2 <;> rfl

theorem writeItems_of_forall₂ {css : List (List Char)} {xs : List Value}
    (h : List.Forall₂ IsTextOf css xs) (hdigits : ∀ x ∈ xs, x.digits ≤ Whole.maxDigits)
    (depth : Nat) : writeItems .compact depth xs = .ok (css.map String.ofList) := by
  rw [writeItems_eq_mapM, mapM_eq_ok_iff, List.forall₂_map_right_iff]
  have hitems := (List.forall₂_and_left xs css).mpr ⟨hdigits, h.flip⟩
  exact hitems.imp fun _ _ hx => hx.2.written hx.1 depth

theorem readItems_last {l : Limits} {depth fuel : Nat} {ps rest : List CodePoint} {v : Value}
    (h : readValue l depth fuel ps = .ok (v, .char ']' :: rest)) :
    readItems l depth (fuel + 1) ps = .ok ([v], rest) := by
  rw [readItems, h]
  rfl

theorem readItems_more {l : Limits} {depth fuel : Nat} {ps more rest : List CodePoint} {v : Value}
    {vs : List Value} (h : readValue l depth fuel ps = .ok (v, .char ',' :: more))
    (hmore : readItems l depth fuel (skipSpace more) = .ok (vs, rest)) :
    readItems l depth (fuel + 1) ps = .ok (v :: vs, rest) := by
  rw [readItems, h]
  show (readItems l depth fuel (skipSpace more) >>= fun r => .ok (v :: r.1, r.2)) = _
  rw [hmore]
  rfl

/-- The items of a list are read up to its bracket. -/
theorem readItems_joined {css : List (List Char)} {xs : List Value}
    (h : List.Forall₂ IsTextOf css xs) (hne : css ≠ []) {l : Limits} {depth fuel : Nat}
    (hadmits : ∀ x ∈ xs, l.Admits depth x) (hfuel : 2 * (joined css).length + 1 ≤ fuel)
    (rest : List CodePoint) : readItems l depth fuel ((joined css).map .char ++ .char ']' :: rest) =
      .ok (xs, rest) := by
  induction h generalizing fuel with
  | nil => exact absurd rfl hne
  | @cons cs x css xs hhead htail ih =>
    obtain ⟨fuel, rfl⟩ : ∃ k, fuel = k + 1 := ⟨fuel - 1, by omega⟩
    obtain ⟨hx, hxs⟩ := List.forall_mem_cons.mp hadmits
    cases htail with
    | nil =>
      have hjoined : joined [cs] = cs := List.intercalate_singleton
      rw [hjoined] at hfuel ⊢
      exact readItems_last (hhead.read hx (by omega) (endsNumber_cons (by decide) rest))
    | @cons cs' x' css xs hhead' htail =>
      obtain ⟨c, more, rfl, hspace, _⟩ := hhead'.start
      obtain ⟨more', hmore⟩ := exists_joined_cons c more css
      rw [joined_cons_cons] at hfuel ⊢
      simp only [List.length_append, List.length_cons] at hfuel
      have hlength : 2 * (joined ((c :: more) :: css)).length + 1 ≤ fuel := by omega
      have hrest := ih (List.cons_ne_nil _ _) hxs hlength
      rw [List.map_append, List.append_assoc]
      refine readItems_more (hhead.read hx (by omega) (endsNumber_cons (by decide) _)) ?_
      rw [hmore] at hrest ⊢
      show readItems l depth fuel (skipSpace (.char c :: _)) = _
      rw [skipSpace_of_start hspace]
      exact hrest

theorem depth_le_items {x : Value} {xs : List Value} (h : x ∈ xs) :
    Lossless.depth x ≤ Lossless.depthOfItems xs := by
  induction xs with
  | nil => cases h
  | cons y ys ih =>
    rw [Lossless.depthOfItems]
    rcases List.mem_cons.mp h with rfl | h
    · exact Nat.le_max_left _ _
    · exact Nat.le_trans (ih h) (Nat.le_max_right _ _)

theorem Limits.Admits.items {l : Limits} {depth : Nat} {xs : List Value}
    (h : l.Admits depth (.list xs)) : depth < l.depth ∧ ∀ x ∈ xs, l.Admits (depth + 1) x := by
  have hdepth := h.depth
  rw [Lossless.depth] at hdepth
  refine ⟨by omega, fun x hx => ⟨?_, Value.digits_list_le_iff.mp h.digits x hx⟩⟩
  have hle := depth_le_items hx
  omega

theorem readValue_list {l : Limits} {depth fuel : Nat} (hdepth : depth < l.depth) {c : Char}
    (hspace : isSpace (.char c) = false) (hc : c ≠ ']') {more rest : List CodePoint}
    {vs : List Value} (h : readItems l (depth + 1) fuel (.char c :: more) = .ok (vs, rest)) :
    readValue l depth (fuel + 1) (.char '[' :: .char c :: more) = .ok (.list vs, rest) := by
  rw [readValue, nested, if_pos hdepth, skipSpace_of_start hspace]
  split
  · rename_i heq
    exact absurd (CodePoint.char.inj (List.cons.inj heq).1) hc
  · rw [h]
    rfl

/-- A list is written between brackets. -/
theorem isTextOf_list {css : List (List Char)} {xs : List Value}
    (h : List.Forall₂ IsTextOf css xs) : IsTextOf ('[' :: (joined css ++ [']'])) (.list xs) where
  written hdigits depth := by
    rw [write, writeItems_of_forall₂ h (Value.digits_list_le_iff.mp hdigits)]
    exact congrArg Except.ok (enclosed_compact depth "[" "]" css)
  ascii := toNat_lt_of_mem_bracketed (by decide) (by decide) fun cs hcs => by
    obtain ⟨x, _, hx⟩ := exists_mem_of_forall₂ h hcs
    exact hx.ascii
  start := ⟨'[', _, rfl, by decide, by decide⟩
  read {l depth fuel rest} hadmits hfuel _ := by
    obtain ⟨hdepth, hitems⟩ := hadmits.items
    simp only [List.length_cons, List.length_append] at hfuel
    obtain ⟨fuel, rfl⟩ : ∃ k, fuel = k + 1 := ⟨fuel - 1, by omega⟩
    have hlength : 2 * (joined css).length + 1 ≤ fuel := by omega
    cases h with
    | nil =>
      rw [readValue.eq_def]
      exact if_pos hdepth
    | @cons cs x css xs hhead htail =>
      obtain ⟨c, more, rfl, hspace, hc⟩ := hhead.start
      obtain ⟨more', hmore⟩ := exists_joined_cons c more css
      have hread := readItems_joined (.cons hhead htail) (List.cons_ne_nil _ _) hitems hlength rest
      rw [List.map_cons, List.map_append, List.cons_append, List.append_assoc]
      rw [hmore] at hread ⊢
      exact readValue_list hdepth hspace hc hread

/-- The characters are JSON text of an entry. -/
def IsEntryText (cs : List Char) (e : String × Value) : Prop :=
  ∃ vs, IsTextOf vs e.2 ∧ cs = quoted (ofText e.1) ++ ':' :: ' ' :: vs

theorem IsEntryText.ascii {cs : List Char} {e : String × Value} (h : IsEntryText cs e) :
    ∀ c ∈ cs, c.toNat < 128 := by
  obtain ⟨vs, hvs, rfl⟩ := h
  rw [List.forall_mem_append]
  exact ⟨toNat_lt_of_mem_quoted _, List.forall_mem_cons.mpr ⟨by decide,
    List.forall_mem_cons.mpr ⟨by decide, hvs.ascii⟩⟩⟩

theorem IsEntryText.written {cs : List Char} {e : String × Value} (h : IsEntryText cs e)
    (hdigits : e.2.digits ≤ Whole.maxDigits) (depth : Nat) :
    writeEntry .compact depth (.text e.1, e.2) = .ok (String.ofList cs) := by
  obtain ⟨vs, hvs, rfl⟩ := h
  rw [writeEntry_of_key rfl, hvs.written hdigits depth]
  refine congrArg Except.ok (String.ext_iff.mpr ?_)
  simp [text]

theorem writeEntries_of_forall₂ {css : List (List Char)} {fields : List (String × Value)}
    (h : List.Forall₂ IsEntryText css fields)
    (hdigits : ∀ e ∈ fields, e.2.digits ≤ Whole.maxDigits) (depth : Nat) :
    writeEntries .compact depth (fields.map fun (k, v) => (.text k, v)) =
      .ok (css.map String.ofList) := by
  rw [writeEntries_eq_mapM, mapM_eq_ok_iff, List.forall₂_map_left_iff,
    List.forall₂_map_right_iff]
  have hentries := (List.forall₂_and_left fields css).mpr ⟨hdigits, h.flip⟩
  exact hentries.imp fun _ _ he => IsEntryText.written he.2 he.1 depth

/-- The key of an entry is read, and then its value. -/
theorem IsEntryText.read {cs : List Char} {e : String × Value} (h : IsEntryText cs e) {l : Limits}
    {depth fuel : Nat} (hadmits : l.Admits depth e.2) (hfuel : 2 * cs.length ≤ fuel)
    {rest : List CodePoint} (hrest : EndsNumber rest) :
    ∃ ps qs, cs.map .char ++ rest = .char '"' :: ps ∧
      readText fuel ps = .ok (.text e.1, .char ':' :: qs) ∧
      readValue l depth fuel (skipSpace qs) = .ok (e.2, rest) := by
  obtain ⟨vs, hvs, rfl⟩ := h
  simp only [List.length_append, List.length_cons] at hfuel
  obtain ⟨c, more, rfl, hspace, _⟩ := hvs.start
  have hkey := readText_quoted (areApart_ofText e.1) (by omega : _ ≤ fuel)
    (.char ':' :: .char ' ' :: ((c :: more).map .char ++ rest))
  rw [ofPoints_ofText] at hkey
  refine ⟨_, .char ' ' :: ((c :: more).map .char ++ rest), ?_, hkey, ?_⟩
  · rw [List.map_append, List.append_assoc, map_quoted]
    rfl
  · show readValue l depth fuel (skipSpace (.char c :: _)) = _
    rw [skipSpace_of_start hspace]
    exact hvs.read hadmits (by omega) hrest

theorem readEntries_last {l : Limits} {depth fuel : Nat} {ps qs rest : List CodePoint} {k v : Value}
    (hkey : readText fuel ps = .ok (k, .char ':' :: qs))
    (hvalue : readValue l depth fuel (skipSpace qs) = .ok (v, .char '\x7d' :: rest)) :
    readEntries l depth (fuel + 1) (.char '"' :: ps) = .ok ([(k, v)], rest) := by
  rw [readEntries, hkey]
  show (readValue l depth fuel (skipSpace qs) >>= _) = _
  rw [hvalue]
  rfl

theorem readEntries_more {l : Limits} {depth fuel : Nat} {ps qs more rest : List CodePoint}
    {k v : Value} {es : List (Value × Value)} (hkey : readText fuel ps = .ok (k, .char ':' :: qs))
    (hvalue : readValue l depth fuel (skipSpace qs) = .ok (v, .char ',' :: more))
    (hmore : readEntries l depth fuel (skipSpace more) = .ok (es, rest)) :
    readEntries l depth (fuel + 1) (.char '"' :: ps) = .ok ((k, v) :: es, rest) := by
  rw [readEntries, hkey]
  show (readValue l depth fuel (skipSpace qs) >>= _) = _
  rw [hvalue]
  show (readEntries l depth fuel (skipSpace more) >>= fun r => .ok ((k, v) :: r.1, r.2)) = _
  rw [hmore]
  rfl

/-- The entries of a mapping are read up to its bracket. -/
theorem readEntries_joined {css : List (List Char)} {fields : List (String × Value)}
    (h : List.Forall₂ IsEntryText css fields) (hne : css ≠ []) {l : Limits} {depth fuel : Nat}
    (hadmits : ∀ e ∈ fields, l.Admits depth e.2) (hfuel : 2 * (joined css).length + 1 ≤ fuel)
    (rest : List CodePoint) :
    readEntries l depth fuel ((joined css).map .char ++ .char '\x7d' :: rest) =
      .ok (fields.map fun (k, v) => (.text k, v), rest) := by
  induction h generalizing fuel with
  | nil => exact absurd rfl hne
  | @cons cs e css fields hhead htail ih =>
    obtain ⟨fuel, rfl⟩ : ∃ k, fuel = k + 1 := ⟨fuel - 1, by omega⟩
    obtain ⟨he, hes⟩ := List.forall_mem_cons.mp hadmits
    cases htail with
    | nil =>
      have hjoined : joined [cs] = cs := List.intercalate_singleton
      rw [hjoined] at hfuel ⊢
      have hends : EndsNumber (.char '\x7d' :: rest) := endsNumber_cons (by decide) rest
      obtain ⟨ps, qs, hcs, hkey, hvalue⟩ := hhead.read he (by omega : _ ≤ fuel) hends
      rw [hcs]
      exact readEntries_last hkey hvalue
    | @cons cs' e' css fields hhead' htail =>
      rw [joined_cons_cons] at hfuel ⊢
      simp only [List.length_append, List.length_cons] at hfuel
      have hlength : 2 * (joined (cs' :: css)).length + 1 ≤ fuel := by omega
      have hrest := ih (List.cons_ne_nil _ _) hes hlength
      have hends : EndsNumber (.char ',' ::
          ((' ' :: joined (cs' :: css)).map .char ++ .char '\x7d' :: rest)) :=
        endsNumber_cons (by decide) _
      obtain ⟨ps, qs, hcs, hkey, hvalue⟩ := hhead.read he (by omega : _ ≤ fuel) hends
      have hstart : skipSpace (.char ' ' :: ((joined (cs' :: css)).map .char ++
          .char '\x7d' :: rest)) = (joined (cs' :: css)).map .char ++ .char '\x7d' :: rest := by
        obtain ⟨vs, _, rfl⟩ := hhead'
        obtain ⟨more, hmore⟩ := exists_joined_cons '"' _ css
        rw [quoted, List.cons_append, hmore]
        have hquote : isSpace (.char '"') = false := by decide
        exact skipSpace_of_start hquote _
      rw [List.map_append, List.append_assoc, List.map_cons, List.cons_append, hcs]
      refine readEntries_more hkey hvalue ?_
      rw [List.map_cons, List.cons_append, hstart]
      exact hrest

theorem readValue_object {l : Limits} {depth fuel : Nat} (hdepth : depth < l.depth)
    {more rest : List CodePoint} {es : List (Value × Value)}
    (h : readEntries l (depth + 1) fuel (.char '"' :: more) = .ok (es, rest)) :
    readValue l depth (fuel + 1) (.char '\x7b' :: .char '"' :: more) =
      .ok (.map (Assoc.ofPairs es), rest) := by
  rw [readValue, nested, if_pos hdepth, skipSpace_of_start (by decide)]
  split
  · rename_i heq
    cases heq
  · rw [h]
    rfl

theorem depth_le_entries {e : String × Value} {fields : List (String × Value)} (h : e ∈ fields) :
    Lossless.depth e.2 ≤ Lossless.depthOfEntries (fields.map fun (k, v) => (.text k, v)) := by
  induction fields with
  | nil => cases h
  | cons f fields ih =>
    rw [List.map_cons, Lossless.depthOfEntries]
    rcases List.mem_cons.mp h with rfl | h
    · exact Nat.le_trans (Nat.le_max_right _ _) (Nat.le_max_left _ _)
    · exact Nat.le_trans (ih h) (Nat.le_max_right _ _)

theorem Limits.Admits.entries {l : Limits} {depth : Nat} {fields : List (String × Value)}
    (h : l.Admits depth (.object fields)) :
    depth < l.depth ∧ ∀ e ∈ fields, l.Admits (depth + 1) e.2 := by
  have hdepth : depth + (Lossless.depthOfEntries (fields.map fun (k, v) => (.text k, v)) + 1) ≤
    l.depth := h.depth
  refine ⟨by omega, fun e he => ⟨?_, Value.digits_object_le_iff.mp h.digits e he⟩⟩
  have hle := depth_le_entries he
  omega

/-- A mapping is written between braces. -/
theorem isTextOf_object {css : List (List Char)} {fields : List (String × Value)}
    (hkeys : (Assoc.keys fields).Nodup) (h : List.Forall₂ IsEntryText css fields) :
    IsTextOf ('\x7b' :: (joined css ++ ['\x7d'])) (.object fields) where
  written hdigits depth := by
    rw [Value.object, write, writeEntries_of_forall₂ h (Value.digits_object_le_iff.mp hdigits)]
    exact congrArg Except.ok (enclosed_compact depth "\x7b" "\x7d" css)
  ascii := toNat_lt_of_mem_bracketed (by decide) (by decide) fun cs hcs => by
    obtain ⟨e, _, he⟩ := exists_mem_of_forall₂ h hcs
    exact he.ascii
  start := ⟨'\x7b', _, rfl, by decide, by decide⟩
  read {l depth fuel rest} hadmits hfuel _ := by
    obtain ⟨hdepth, hentries⟩ := hadmits.entries
    simp only [List.length_cons, List.length_append] at hfuel
    obtain ⟨fuel, rfl⟩ : ∃ k, fuel = k + 1 := ⟨fuel - 1, by omega⟩
    have hlength : 2 * (joined css).length + 1 ≤ fuel := by omega
    cases h with
    | nil =>
      rw [readValue.eq_def]
      exact if_pos hdepth
    | @cons cs e css fields hhead htail =>
      have hread := readEntries_joined (.cons hhead htail) (List.cons_ne_nil _ _) hentries hlength
        rest
      obtain ⟨vs, _, rfl⟩ := hhead
      obtain ⟨more, hmore⟩ := exists_joined_cons '"' _ css
      rw [List.map_cons, List.map_append, List.cons_append, List.append_assoc]
      rw [quoted, List.cons_append, hmore] at hread ⊢
      refine (readValue_object hdepth hread).trans ?_
      rw [Selection.ofPairs_object, Assoc.ofPairs_of_nodup hkeys]
      rfl

/-! ## Reading what was written -/

section Data

variable {k : Nat} {v : Value}

/-- Plain data has a JSON text. -/
theorem IsData.exists_text (h : IsData k v) : ∃ cs, IsTextOf cs v := by
  induction h with
  | null => exact ⟨_, isTextOf_null⟩
  | bool b => exact ⟨_, isTextOf_bool b⟩
  | int n => exact ⟨_, isTextOf_int n⟩
  | text s => exact ⟨_, isTextOf_quoted (ofPoints_ofText s) (fun _ => rfl) (areApart_ofText s)⟩
  | brokenText t h => exact ⟨_, isTextOf_quoted (ofPoints_points t) (fun _ => rfl) h⟩
  | list _ ih =>
    obtain ⟨css, hcss⟩ := exists_forall₂ ih
    exact ⟨_, isTextOf_list hcss.flip⟩
  | @object fields hkeys _ ih =>
    have hentries : ∀ e ∈ fields, ∃ cs, IsEntryText cs e := fun e he => by
      obtain ⟨vs, hvs⟩ := ih e he
      exact ⟨_, vs, hvs, rfl⟩
    obtain ⟨css, hcss⟩ := exists_forall₂ hentries
    exact ⟨_, isTextOf_object hkeys hcss.flip⟩

/-- Plain data without too many digits is written in ASCII, and is read back by every reader that
    goes far enough. -/
theorem IsData.exists_compact (h : IsData k v) (hdigits : v.digits ≤ Whole.maxDigits) :
    ∃ text, compact v = .ok text ∧ (∀ c ∈ text.toList, c.toNat < 128) ∧
      ∀ l : Limits, l.Admits 0 v → readWithin l (ofText text) = .ok v := by
  obtain ⟨cs, hcs⟩ := h.exists_text
  obtain ⟨c, more, hstart, hspace, _⟩ := hcs.start
  refine ⟨String.ofList cs, hcs.written hdigits 1, ?_, fun l hl => ?_⟩
  · rw [String.toList_ofList]
    exact hcs.ascii
  · have hskip : skipSpace (cs.map .char) = cs.map .char := by
      rw [hstart]
      exact skipSpace_of_start hspace _
    have hfuel : 2 * cs.length ≤ 2 * (cs.map CodePoint.char).length + 1 := by
      rw [List.length_map]
      omega
    have hread := hcs.read hl hfuel endsNumber_nil
    rw [List.append_nil] at hread
    rw [readWithin, ofText, String.toList_ofList, hskip, hread]
    rfl

end Data

/-! ## Data that has no text -/

/-- Plain data with a number that is too long is not written. -/
theorem IsData.write_of_lt {k : Nat} {v : Value} (h : IsData k v)
    (hlong : Whole.maxDigits < v.digits) (depth : Nat) :
    write .compact depth v = .error (.argument .intTooLong) := by
  -- Parts that can be written are, so the walk gets to the first one that cannot.
  have hends : ∀ {x : Value} {depth : Nat}, IsData k x →
      (Whole.maxDigits < x.digits → write .compact depth x = .error (.argument .intTooLong)) →
      (∃ s, write .compact depth x = .ok s) ∨
        write .compact depth x = .error (.argument .intTooLong) := by
    intro x depth hx hrefused
    rcases Nat.lt_or_ge Whole.maxDigits x.digits with hlt | hle
    · exact .inr (hrefused hlt)
    · obtain ⟨cs, hcs⟩ := hx.exists_text
      exact .inl ⟨_, hcs.written hle depth⟩
  induction h generalizing depth with
  | int n => exact Value.whenWritable_of_lt hlong _
  | @list xs hxs ih =>
    obtain ⟨x, hx, hlt⟩ := not_forall₂.mp (mt Value.digits_list_le_iff.mpr (Nat.not_le.mpr hlong))
    have hitems : writeItems .compact (depth + 1) xs = .error (.argument .intTooLong) := by
      rw [writeItems_eq_mapM]
      exact mapM_eq_error (fun x hx => hends (hxs x hx) fun h => ih x hx h _)
        ⟨x, hx, ih x hx (Nat.lt_of_not_le hlt) _⟩
    rw [write, hitems]
    rfl
  | @object fields _ hfields ih =>
    obtain ⟨e, he, hlt⟩ :=
      not_forall₂.mp (mt Value.digits_object_le_iff.mpr (Nat.not_le.mpr hlong))
    have hentries : writeEntries .compact (depth + 1) (fields.map fun (k, v) => (.text k, v)) =
        .error (.argument .intTooLong) := by
      rw [writeEntries_eq_mapM]
      refine mapM_eq_error (List.forall_mem_map.mpr fun f hf => ?_) ⟨_, List.mem_map_of_mem he, ?_⟩
      · rw [writeEntry_of_key rfl]
        rcases hends (hfields f hf) (fun h => ih f hf h (depth + 1)) with hwritten | hrefused
        · exact .inl (exists_map_eq_ok_iff.mpr hwritten)
        · exact .inr (by rw [hrefused]; rfl)
      · rw [writeEntry_of_key rfl, ih e he (Nat.lt_of_not_le hlt)]
        rfl
    rw [Value.object, write, hentries]
    rfl
  | _ => exact absurd hlong (Nat.not_lt_zero _)

end DocQuery.Json
