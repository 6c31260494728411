-- SUMMARY: The texts that are read as pointers: compact texts of plain pointers, with or without a line end.
import Mathlib.Data.List.TakeWhile
import DocQuery.Proofs.Wire.Tagged

/-!
# Compact texts that are read

A pointer is plain when its class is a letter, perhaps after one underscore, and then word
characters, and its id is made of word characters and hyphens. A text is read as a plain
pointer when it is the compact text of the pointer, or that text with a line end, and no other
text is read. So the pointer does not tell whether there was a line end.
-/

namespace DocQuery

namespace Text

/-! ## Line ends -/

/-- The last character of a text is a line end. -/
def endsLine (s : String) : Bool :=
  s.toList.getLast? == some '\n'

/-- A text without the line end that it ends in. -/
def bare (s : String) : String :=
  if endsLine s then String.ofList s.toList.dropLast else s

theorem bare_of_not_endsLine {s : String} (h : endsLine s = false) : bare s = s := by
  rw [bare, h, if_neg Bool.false_ne_true]

theorem toList_bare_append {s : String} (h : endsLine s = true) :
    (bare s).toList ++ ['\n'] = s.toList := by
  rw [bare, if_pos h, String.toList_ofList]
  exact List.dropLast_append_getLast? '\n' (eq_of_beq h)

theorem bare_lineEnd (s : String) : bare (s ++ "\n") = s := by
  have hlist : (s ++ "\n").toList = s.toList ++ ['\n'] := String.toList_append
  have hend : endsLine (s ++ "\n") = true := by
    simp [endsLine, hlist]
  rw [bare, if_pos hend, hlist, List.dropLast_concat, String.ofList_toList]

/-- Only a text that ends in no line end is left as it is. -/
theorem bare_eq_self_iff {s : String} : bare s = s ↔ endsLine s = false := by
  refine ⟨fun h => Bool.eq_false_iff.mpr fun hend => ?_, bare_of_not_endsLine⟩
  have hlength := congrArg List.length (toList_bare_append hend)
  rw [h, List.length_append, List.length_singleton] at hlength
  omega

/-! ## Letters -/

theorem toNat_lt_of_isAsciiLetter {c : Char} (hc : Pointer.isAsciiLetter c = true) :
    c.toNat < 128 := by
  have hlast : ∀ {last : UInt32}, c.val ≤ last → last.toNat < 128 → c.toNat < 128 := fun hle h =>
    Nat.lt_of_le_of_lt (UInt32.le_iff_toNat_le.mp hle) h
  rcases (Bool.or_eq_true _ _).mp hc with hupper | hlower
  · exact hlast (of_decide_eq_true hupper).2 (by decide)
  · exact hlast (of_decide_eq_true ((Bool.and_eq_true _ _).mp hlower).2) (by decide)

/-- ASCII letters are word characters. -/
theorem isWordChar_of_isAsciiLetter {c : Char} (hc : Pointer.isAsciiLetter c = true) :
    isWordChar c = true := by
  have hascii : ∀ n < 128, Pointer.isAsciiLetter (Char.ofNat n) = true →
      isWordChar (Char.ofNat n) = true := by
    decide
  have hletter := hascii c.toNat (toNat_lt_of_isAsciiLetter hc)
  rw [Char.ofNat_toNat] at hletter
  exact hletter hc

end Text

namespace Pointer

/-- A class as compact texts name it: a letter, perhaps after an underscore, and then word
    characters. -/
inductive IsClass : List Char → Prop
  | plain {c : Char} {rest : List Char} (hc : isAsciiLetter c = true)
    (hrest : ∀ d ∈ rest, Text.isWordChar d = true) : IsClass (c :: rest)
  | system {c : Char} {rest : List Char} (hc : isAsciiLetter c = true)
    (hrest : ∀ d ∈ rest, Text.isWordChar d = true) : IsClass ('_' :: c :: rest)

theorem isClassName_iff {cs : List Char} : isClassName cs = true ↔ IsClass cs := by
  constructor
  · intro h
    unfold isClassName at h
    split at h
    · simp only [Bool.and_eq_true, List.all_eq_true] at h
      exact .system h.1 h.2
    · simp only [Bool.and_eq_true, List.all_eq_true] at h
      exact .plain h.1 h.2
    · cases h
  · intro h
    cases h with
    | @plain c rest hc hrest =>
      have hmark : c ≠ '_' := by
        rintro rfl
        cases hc
      rw [isClassName]
      · simp only [hc, Bool.true_and, List.all_eq_true]
        exact hrest
      · exact fun _ _ h _ => hmark h
    | system hc hrest =>
      simp only [isClassName, hc, Bool.true_and, List.all_eq_true]
      exact hrest

theorem IsClass.isWordChar {cs : List Char} (h : IsClass cs) :
    ∀ c ∈ cs, Text.isWordChar c = true := by
  cases h with
  | plain hc hrest =>
    exact List.forall_mem_cons.mpr ⟨Text.isWordChar_of_isAsciiLetter hc, hrest⟩
  | system hc hrest =>
    refine List.forall_mem_cons.mpr ⟨rfl, List.forall_mem_cons.mpr ⟨?_, hrest⟩⟩
    exact Text.isWordChar_of_isAsciiLetter hc

/-- A pointer whose compact text is read. -/
structure IsPlain (p : Pointer) : Prop where
  isClass : IsClass p.className.toList
  objectId_ne : p.objectId ≠ ""
  isId : ∀ c ∈ p.objectId.toList, isIdChar c = true

theorem not_isWordChar_dollar : Text.isWordChar '$' = false := by
  decide

theorem not_isIdChar_lineEnd : isIdChar '\n' = false := by
  decide

theorem IsPlain.dollar_not_mem {p : Pointer} (h : p.IsPlain) : '$' ∉ p.className.toList := by
  intro hmem
  have hword := h.isClass.isWordChar '$' hmem
  rw [not_isWordChar_dollar] at hword
  cases hword

/-- The compact text of a plain pointer ends in no line end. -/
theorem IsPlain.not_endsLine {p : Pointer} (h : p.IsPlain) : Text.endsLine p.compact = false := by
  have hgiven : p.objectId.toList ≠ [] := by
    simpa using h.objectId_ne
  have hlast : p.compact.toList.getLast? = some (p.objectId.toList.getLast hgiven) := by
    rw [toList_compact, List.getLast?_append_cons, List.getLast?_cons_of_ne_nil hgiven,
      List.getLast?_eq_some_getLast hgiven]
  have hid := h.isId _ (List.getLast_mem hgiven)
  rw [Text.endsLine, hlast, beq_eq_false_iff_ne]
  rintro hline
  rw [Option.some.inj hline, not_isIdChar_lineEnd] at hid
  cases hid

/-- The compact text of a plain pointer is read as the pointer, also with a line end. -/
theorem IsPlain.ofCompact?_eq {p : Pointer} (h : p.IsPlain) {s : String} {tail : List Char}
    (htail : tail = [] ∨ tail = ['\n']) (hs : s.toList = p.compact.toList ++ tail) :
    ofCompact? s = some p := by
  have hclass : s.toList.takeWhile Text.isWordChar = p.className.toList ∧
      s.toList.dropWhile Text.isWordChar = '$' :: (p.objectId.toList ++ tail) := by
    rw [hs, toList_compact, List.append_assoc, List.takeWhile_append_of_pos h.isClass.isWordChar,
      List.dropWhile_append_of_pos h.isClass.isWordChar, List.cons_append,
      List.takeWhile_cons_of_neg (by simp [not_isWordChar_dollar]),
      List.dropWhile_cons_of_neg (by simp [not_isWordChar_dollar]), List.append_nil]
    exact ⟨rfl, rfl⟩
  have hid : (p.objectId.toList ++ tail).takeWhile isIdChar = p.objectId.toList ∧
      (p.objectId.toList ++ tail).dropWhile isIdChar = tail := by
    rw [List.takeWhile_append_of_pos h.isId, List.dropWhile_append_of_pos h.isId]
    rcases htail with rfl | rfl
    · exact ⟨List.append_nil _, rfl⟩
    · simp [not_isIdChar_lineEnd]
  have hname : isClassName p.className.toList = true := isClassName_iff.mpr h.isClass
  have hgiven : p.objectId.toList.isEmpty = false := by
    simpa using h.objectId_ne
  have hend : (tail.isEmpty || tail == ['\n']) = true := by
    rcases htail with rfl | rfl <;> rfl
  unfold Pointer.ofCompact?
  simp only [hclass, hid, hname, hgiven, hend, Bool.not_false, Bool.and_self, if_true,
    String.ofList_toList]

/-- Whatever is read as a pointer is the compact text of a plain one, or ends in a line end
    after it. -/
theorem isPlain_of_ofCompact? {s : String} {p : Pointer} (h : ofCompact? s = some p) :
    p.IsPlain ∧ ∃ tail, (tail = [] ∨ tail = ['\n']) ∧ s.toList = p.compact.toList ++ tail := by
  unfold Pointer.ofCompact? at h
  simp only at h
  split at h
  · rename_i rest hrest
    split at h
    · rename_i hfits
      simp only [Bool.and_eq_true, Bool.or_eq_true, Bool.not_eq_true', List.isEmpty_iff,
        beq_iff_eq, List.isEmpty_eq_false_iff] at hfits
      obtain ⟨⟨hclass, hgiven⟩, htail⟩ := hfits
      cases h
      have hs : s.toList = s.toList.takeWhile Text.isWordChar ++
          '$' :: (rest.takeWhile isIdChar ++ rest.dropWhile isIdChar) := by
        rw [List.takeWhile_append_dropWhile, ← hrest, List.takeWhile_append_dropWhile]
      refine ⟨⟨?_, ?_, ?_⟩, rest.dropWhile isIdChar, htail, ?_⟩
      · rw [String.toList_ofList]
        exact isClassName_iff.mp hclass
      · intro hempty
        exact hgiven (by simpa using congrArg String.toList hempty)
      · rw [String.toList_ofList]
        exact fun c hc => List.mem_takeWhile_imp hc
      · rw [toList_compact, String.toList_ofList, String.toList_ofList, List.append_assoc]
        exact hs
    · cases h
  · cases h

/-- The pointer of a compact text is the plain one with this text, but for a line end. -/
theorem ofCompact?_eq_some_iff {s : String} {p : Pointer} : ofCompact? s = some p ↔
    p.IsPlain ∧ Text.bare s = p.compact := by
  constructor
  · intro h
    obtain ⟨hplain, tail, rfl | rfl, hs⟩ := isPlain_of_ofCompact? h
    · rw [List.append_nil, String.toList_inj] at hs
      rw [hs]
      exact ⟨hplain, Text.bare_of_not_endsLine hplain.not_endsLine⟩
    · have hs : s = p.compact ++ "\n" := by
        rw [← String.toList_inj, hs, String.toList_append]
        rfl
      rw [hs]
      exact ⟨hplain, Text.bare_lineEnd p.compact⟩
  · rintro ⟨hplain, hs⟩
    cases hend : Text.endsLine s with
    | false =>
      rw [Text.bare_of_not_endsLine hend] at hs
      exact hplain.ofCompact?_eq (.inl rfl) (by rw [hs, List.append_nil])
    | true =>
      exact hplain.ofCompact?_eq (.inr rfl) (by rw [← hs, Text.toList_bare_append hend])

/-- Only texts are read as pointers, and none with a surrogate that stands alone. -/
theorem ofCompact_eq_ok_iff {v : Value} {p : Pointer} : ofCompact v = .ok p ↔
    p.IsPlain ∧ ∃ s, v = .text s ∧ Text.bare s = p.compact := by
  have hread : ofCompact v = .ok p ↔ ∃ s, v.text? = some s ∧ ofCompact? s = some p := by
    unfold ofCompact
    rw [← Option.bind_eq_some_iff]
    cases v.text?.bind Pointer.ofCompact? <;> simp
  have hkey : ∀ k : TagKey, Pointer.ofCompact? k.text = none := by
    intro k
    cases k <;> decide
  rw [hread]
  cases v with
  | text s => simp [Value.text?, ofCompact?_eq_some_iff]
  | tagKey k => simp [Value.text?, hkey]
  | _ => simp [Value.text?]

end Pointer

end DocQuery
