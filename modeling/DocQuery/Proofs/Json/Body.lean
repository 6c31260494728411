-- SUMMARY: JSON in bytes: the bytes of a text stand for its own characters, and are read by the grammar.
import DocQuery.Json.Body
import DocQuery.Proofs.Json.Reading

/-!
# Bodies

The bytes of a text have a zero among them only where the text has the character, and begin with a
byte order mark only where the text does. So a body stands for its own characters, unless it has
such characters, which no document has, and it is read as a document of the grammar.
-/

namespace DocQuery.Json

open Text (CodePoint Charset bytesOf ofBytes?)
open Text.CodePoint (ofText)

/-! ## Bytes of texts -/

theorem toList_byteArray (bs : ByteArray) : bs.toList = bs.data.toList := by
  have hloop : ∀ i r, ByteArray.toList.loop bs i r = r.reverse ++ bs.data.toList.drop i := by
    intro i r
    fun_induction ByteArray.toList.loop bs i r with
    | case1 i r h ih =>
      have hi : i < bs.data.toList.length := by simpa using h
      rw [ih, List.drop_eq_getElem_cons hi]
      simp [ByteArray.get!, h]
    | case2 i r h =>
      rw [List.drop_eq_nil_of_le (by simpa using Nat.le_of_not_lt h)]
      simp
  rw [ByteArray.toList, hloop]
  rfl

theorem bytesOf_eq (s : String) : bytesOf s = s.toList.flatMap String.utf8EncodeChar := by
  have hbytes : s.toUTF8 = (s.toList.flatMap String.utf8EncodeChar).toByteArray := by
    rw [String.toUTF8_eq_toByteArray]
    conv => lhs; rw [← String.ofList_toList (s := s)]
    exact String.toByteArray_ofList
  rw [bytesOf, hbytes, toList_byteArray, List.toList_data_toByteArray]

theorem ofBytes?_bytesOf (s : String) : ofBytes? (bytesOf s) = some s := by
  have harray : (⟨(bytesOf s).toArray⟩ : ByteArray) = s.toByteArray := by
    rw [bytesOf, toList_byteArray, String.toUTF8_eq_toByteArray, Array.toArray_toList]
  rw [ofBytes?, harray]
  exact dif_pos s.isValidUTF8

theorem mod_of_eq_ofNat {b : UInt8} {n : Nat} (h : b = UInt8.ofNat n) : n % 256 = b.toNat := by
  rw [h, UInt8.toNat_ofNat']

/-- Only the character of number zero is written with a zero. -/
theorem zero_not_mem_utf8EncodeChar {c : Char} (hc : c ≠ '\x00') :
    0 ∉ String.utf8EncodeChar c := by
  have hpos : c.val.toNat ≠ 0 := fun h => hc (Char.toNat_inj.mp h)
  have hne : ∀ n, n % 256 ≠ 0 → (0 : UInt8) ≠ UInt8.ofNat n := fun n hn heq =>
    hn (mod_of_eq_ofNat heq)
  intro hmem
  unfold String.utf8EncodeChar at hmem
  simp only at hmem
  split at hmem
  · exact hne _ (by omega) (List.mem_singleton.mp hmem)
  split at hmem
  · simp only [List.mem_cons, List.not_mem_nil, or_false] at hmem
    rcases hmem with h | h <;> exact hne _ (by omega) h
  split at hmem
  · simp only [List.mem_cons, List.not_mem_nil, or_false] at hmem
    rcases hmem with h | h | h <;> exact hne _ (by omega) h
  · simp only [List.mem_cons, List.not_mem_nil, or_false] at hmem
    rcases hmem with h | h | h | h <;> exact hne _ (by omega) h

/-- The bytes of a byte order mark are those of one character. -/
theorem isPrefixOf_mark {c : Char} (hc : c ≠ Char.ofNat 0xFEFF) (bytes : List UInt8) :
    mark.isPrefixOf (String.utf8EncodeChar c ++ bytes) = false := by
  rw [← Bool.not_eq_true]
  intro hprefix
  unfold String.utf8EncodeChar at hprefix
  simp only at hprefix
  split at hprefix
  · simp only [mark, List.cons_append, List.isPrefixOf_cons_cons, Bool.and_eq_true, beq_iff_eq]
      at hprefix
    have hfirst : _ = 239 := mod_of_eq_ofNat hprefix.1
    omega
  split at hprefix
  · simp only [mark, List.cons_append, List.isPrefixOf_cons_cons, Bool.and_eq_true, beq_iff_eq]
      at hprefix
    have hfirst : _ = 239 := mod_of_eq_ofNat hprefix.1
    omega
  split at hprefix
  · simp only [mark, List.cons_append, List.isPrefixOf_cons_cons, Bool.and_eq_true, beq_iff_eq]
      at hprefix
    have hfirst : _ = 239 := mod_of_eq_ofNat hprefix.1
    have hsecond : _ = 187 := mod_of_eq_ofNat hprefix.2.1
    have hthird : _ = 191 := mod_of_eq_ofNat hprefix.2.2.1
    have hnumber : c.val.toNat = 0xFEFF := by omega
    exact hc (Char.toNat_inj.mp hnumber)
  · simp only [mark, List.cons_append, List.isPrefixOf_cons_cons, Bool.and_eq_true, beq_iff_eq]
      at hprefix
    have hfirst : _ = 239 := mod_of_eq_ofNat hprefix.1
    omega

theorem charsetOf_of_zero_not_mem {bytes : List UInt8} (h : 0 ∉ bytes) :
    charsetOf bytes = .utf8 := by
  unfold charsetOf
  split
  · simp at h
  · simp at h
  · simp at h
  · simp at h
  · rfl

/-- A text without the character of number zero, and without a byte order mark in front, stands
    for its own characters. -/
theorem decode?_bytesOf {s : String} (hzero : '\x00' ∉ s.toList)
    (hmark : s.toList.head? ≠ some (Char.ofNat 0xFEFF)) :
    decode? (bytesOf s) = some (ofText s) := by
  have hbytes : 0 ∉ bytesOf s := by
    rw [bytesOf_eq, List.mem_flatMap]
    rintro ⟨c, hc, hmem⟩
    refine zero_not_mem_utf8EncodeChar ?_ hmem
    rintro rfl
    exact hzero hc
  have hunmarked : mark.isPrefixOf (bytesOf s) = false := by
    rw [bytesOf_eq]
    cases hs : s.toList with
    | nil => rfl
    | cons c cs =>
      rw [List.flatMap_cons]
      refine isPrefixOf_mark ?_ _
      rintro rfl
      exact hmark (congrArg List.head? hs)
  rw [decode?, hunmarked, if_neg Bool.false_ne_true, charsetOf_of_zero_not_mem hbytes,
    Charset.decode?, ofBytes?_bytesOf]
  rfl

/-! ## Characters of documents

The text of a document has the character of number zero nowhere, since controls are written as
escapes, and a byte order mark at most inside of texts. So its bytes stand for itself.
-/

/-- The code point of number zero. -/
abbrev zeroPoint : CodePoint :=
  .char '\x00'

/-- The code point of a byte order mark. -/
abbrev markPoint : CodePoint :=
  .char (Char.ofNat 0xFEFF)

theorem AreBlanks.zero_not_mem {bs : List CodePoint} (h : AreBlanks bs) : zeroPoint ∉ bs := by
  intro hmem
  exact absurd (h _ hmem) (by decide)

theorem IsHexUnit.zero_not_mem {ds : List CodePoint} {n : Nat} (h : IsHexUnit ds n) :
    zeroPoint ∉ ds := by
  have hne : ∀ {c : Char} {i : Nat}, Text.hexValue? c = some i → zeroPoint ≠ .char c := by
    rintro c i hc heq
    cases heq
    cases hc
  obtain ⟨ha, hb, hc, hd⟩ := h
  simp [hne ha, hne hb, hne hc, hne hd]

theorem IsContent.zero_not_mem {cs ps : List CodePoint} (h : IsContent cs ps) :
    zeroPoint ∉ cs := by
  induction h with
  | nil => exact List.not_mem_nil
  | @plain p _ _ _ _ hcontrol _ ih =>
    have hne : zeroPoint ≠ p := by
      rintro rfl
      cases hcontrol
    simp [hne, ih]
  | @letter c d _ _ hletter _ ih =>
    have hne : zeroPoint ≠ .char c := by
      intro heq
      cases heq
      simp [letterEscapes] at hletter
    simp [hne, ih]
  | unit hn _ _ ih => simp [hn.zero_not_mem, ih]
  | pair hn hm _ _ _ ih => simp [hn.zero_not_mem, hm.zero_not_mem, ih]

theorem IsText.zero_not_mem {cs ps : List CodePoint} (h : IsText cs ps) : zeroPoint ∉ cs := by
  obtain ⟨h⟩ := h
  simp [h.zero_not_mem]

theorem IsName.zero_not_mem {cs ps : List CodePoint} (h : IsName cs ps) : zeroPoint ∉ cs := by
  obtain ⟨hbs, h, hbs'⟩ := h
  simp [hbs.zero_not_mem, h.zero_not_mem, hbs'.zero_not_mem]

theorem IsNumber.zero_not_mem {cs : List Char} {v : Value} (h : IsNumber cs v) :
    zeroPoint ∉ cs.map CodePoint.char := by
  rintro hmem
  obtain ⟨c, hc, heq⟩ := List.mem_map.mp hmem
  cases heq
  exact absurd (h.isNumeric _ hc) (by decide)

mutual

theorem IsValue.zero_not_mem : ∀ {cs : List CodePoint} {v : Value}, IsValue cs v →
    zeroPoint ∉ cs
  | _, _, .word h => by
    simp only [words, List.mem_cons, Prod.mk.injEq, List.not_mem_nil, or_false] at h
    rcases h with ⟨rfl, _⟩ | ⟨rfl, _⟩ | ⟨rfl, _⟩ | ⟨rfl, _⟩ | ⟨rfl, _⟩ | ⟨rfl, _⟩ <;> decide
  | _, _, .number h => h.zero_not_mem
  | _, _, .text h => h.zero_not_mem
  | _, _, .noElements h => by simp [h.zero_not_mem]
  | _, _, .list h => by simp [h.zero_not_mem]
  | _, _, .noMembers h => by simp [h.zero_not_mem]
  | _, _, .object h => by simp [h.zero_not_mem]

theorem IsElement.zero_not_mem : ∀ {cs : List CodePoint} {v : Value}, IsElement cs v →
    zeroPoint ∉ cs
  | _, _, .mk hbs h hbs' => by simp [hbs.zero_not_mem, h.zero_not_mem, hbs'.zero_not_mem]

theorem AreElements.zero_not_mem : ∀ {cs : List CodePoint} {vs : List Value}, AreElements cs vs →
    zeroPoint ∉ cs
  | _, _, .last h => h.zero_not_mem
  | _, _, .more h hmore => by simp [h.zero_not_mem, hmore.zero_not_mem]

theorem AreMembers.zero_not_mem : ∀ {cs : List CodePoint} {ms : List Member}, AreMembers cs ms →
    zeroPoint ∉ cs
  | _, _, .last hname h => by simp [hname.zero_not_mem, h.zero_not_mem]
  | _, _, .more hname h hmore => by
    simp [hname.zero_not_mem, h.zero_not_mem, hmore.zero_not_mem]

end

theorem IsValue.head?_ne_mark {cs : List CodePoint} {v : Value} (h : IsValue cs v) :
    cs.head? ≠ some markPoint := by
  cases h with
  | word h =>
    simp only [words, List.mem_cons, Prod.mk.injEq, List.not_mem_nil, or_false] at h
    rcases h with ⟨rfl, _⟩ | ⟨rfl, _⟩ | ⟨rfl, _⟩ | ⟨rfl, _⟩ | ⟨rfl, _⟩ | ⟨rfl, _⟩ <;> decide
  | number h =>
    obtain ⟨negative, d, more, rfl, hd⟩ := h.start
    cases negative with
    | true => exact fun heq => absurd (Option.some.inj heq) (by decide)
    | false => exact fun heq => char_ne_of_isDigit hd (by decide) (Option.some.inj heq)
  | text h =>
    obtain ⟨_⟩ := h
    exact fun heq => absurd (Option.some.inj heq) (by decide)
  | _ => exact fun heq => absurd (Option.some.inj heq) (by decide)

theorem IsElement.head?_ne_mark {cs : List CodePoint} {v : Value} (h : IsElement cs v) :
    cs.head? ≠ some markPoint := by
  obtain @⟨bs, _, _, _, hbs, h, _⟩ := h
  cases bs with
  | nil =>
    obtain ⟨p, more, rfl, _⟩ := h.start
    exact h.head?_ne_mark
  | cons b bs =>
    intro heq
    have hspace := hbs b List.mem_cons_self
    rw [Option.some.inj heq] at hspace
    exact absurd hspace (by decide)

/-- The bytes of a document stand for the document. -/
theorem IsElement.decode?_bytesOf {body : String} {v : Value} (h : IsElement (ofText body) v) :
    decode? (bytesOf body) = some (ofText body) := by
  refine Json.decode?_bytesOf (fun hmem => ?_) fun hmark => ?_
  · exact h.zero_not_mem (List.mem_map_of_mem hmem)
  · refine h.head?_ne_mark ?_
    rw [ofText, List.head?_map, hmark]
    rfl

/-! ## Documents in bodies -/

/-- A body is a document that stands for a value. -/
def IsDocument (body : String) (v : Value) : Prop :=
  ∃ ps, decode? (bytesOf body) = some ps ∧ IsElement ps v

/-- A body is an object with members, as they are written. -/
def HasMembers (body : String) (ms : List Member) : Prop :=
  ∃ ps, decode? (bytesOf body) = some ps ∧ IsObject ps ms

/-- No limit is hit when a body is read. -/
def IsWithinLimits (body : String) : Prop :=
  ∀ e, readBytes (bytesOf body) = .error e → ¬IsLimit e

section Bodies

variable {body : String} {v : Value} {ms : List Member}

theorem HasMembers.isDocument (h : HasMembers body ms) :
    IsDocument body (mapping (Assoc.ofPairs ms)) := by
  obtain ⟨ps, hps, h⟩ := h
  exact ⟨ps, hps, h.isElement⟩

theorem IsDocument.exists_hasMembers {es : List (Value × Value)} (h : IsDocument body (.map es)) :
    ∃ ms, HasMembers body ms ∧ .map es = mapping (Assoc.ofPairs ms) := by
  obtain ⟨ps, hps, h⟩ := h
  obtain ⟨ms, hms, heq⟩ := h.exists_isObject
  exact ⟨ms, ⟨ps, hps, hms⟩, heq⟩

/-- What is read from a body is the document that it is, and can be written again. -/
theorem isDocument_of_readBytes (hread : readBytes (bytesOf body) = .ok v) :
    IsDocument body v ∧ ∃ s, compact v = .ok s := by
  unfold readBytes at hread
  split at hread
  · rename_i ps hps
    obtain ⟨h, hdigits⟩ := (readWithin_finds .standard ps).of_eq_ok hread
    exact ⟨⟨ps, hps, h⟩, h.hasText hdigits 1⟩
  · cases hread

theorem readBytes_of_decode?_eq_some {ps : List CodePoint} (hps : decode? (bytesOf body) = some ps) :
    readBytes (bytesOf body) = readWithin .standard ps := by
  rw [readBytes, hps]
  rfl

theorem isWithinLimits_of_readBytes (hread : readBytes (bytesOf body) = .ok v) :
    IsWithinLimits body := by
  intro e he
  rw [hread] at he
  cases he

theorem readBytes_eq_ok_iff (hlimits : IsWithinLimits body) :
    readBytes (bytesOf body) = .ok v ↔ IsDocument body v := by
  refine ⟨fun hread => (isDocument_of_readBytes hread).1, ?_⟩
  rintro ⟨ps, hps, h⟩
  have hread := readBytes_of_decode?_eq_some hps
  rw [IsWithinLimits, hread] at hlimits
  rw [hread]
  exact (h.readWithin_gives .standard).eq_ok hlimits

theorem readBytes_of_decode?_eq_none (h : decode? (bytesOf body) = none) :
    readBytes (bytesOf body) = .error .undecodable := by
  rw [readBytes, h]

/-- A text that is no document breaks the rules. -/
theorem readBytes_of_not_isElement (hlimits : IsWithinLimits body) {ps : List CodePoint}
    (hps : decode? (bytesOf body) = some ps) (h : ∀ v, ¬IsElement ps v) :
    readBytes (bytesOf body) = .error .malformedJson := by
  have hread := readBytes_of_decode?_eq_some hps
  rw [IsWithinLimits, hread] at hlimits
  rw [hread]
  have hfinds := readWithin_finds .standard ps
  cases heq : readWithin .standard ps with
  | ok v => exact absurd (hfinds.of_eq_ok heq).1 (h v)
  | error e => rw [hfinds.eq_malformed heq (hlimits e heq)]

end Bodies

end DocQuery.Json
