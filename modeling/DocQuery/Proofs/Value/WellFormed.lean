-- SUMMARY: Well-formed values: mappings whose keys differ, sets whose items differ, and ids of full length.
import DocQuery.Value.Equal
import DocQuery.Proofs.FieldName
import DocQuery.Proofs.Number.Decimal

/-!
# Well-formed values

The type of values also holds mappings with two equal keys, and ids that are no ids. No
caller can build those. Among the keys of a well-formed mapping, the names of the system
fields and their columns can only be written as texts, so each of them is written once.
-/

namespace DocQuery

/-- A digit of a hexadecimal number, in lower case. -/
def isHexDigit (c : Char) : Bool :=
  c.isDigit || ('a' ≤ c && c ≤ 'f')

/-- An id has 24 hexadecimal digits. -/
def ObjectId.isWellFormed (o : ObjectId) : Bool :=
  o.hex.length == 24 && o.hex.toList.all isHexDigit

namespace Value

open FieldName

/-- No value equals a later one. -/
def differ : List Value → Bool
  | [] => true
  | x :: xs => !x.isIn xs && differ xs

mutual

/-- The keys of mappings differ, the items of sets differ, and ids are ids. -/
def isWellFormed : Value → Bool
  | .list xs => areWellFormed xs
  | .tuple xs => areWellFormed xs
  | .set _ xs => differ xs && areWellFormed xs
  | .map es => differ (es.map Prod.fst) && haveWellFormed es
  | .objectId o => o.isWellFormed
  | _ => true

/-- All items are well-formed. -/
def areWellFormed : List Value → Bool
  | [] => true
  | x :: xs => x.isWellFormed && areWellFormed xs

/-- All keys and values are well-formed. -/
def haveWellFormed : List (Value × Value) → Bool
  | [] => true
  | (k, v) :: es => k.isWellFormed && v.isWellFormed && haveWellFormed es

end

theorem haveWellFormed_iff {es : List (Value × Value)} :
    haveWellFormed es = true ↔ ∀ e ∈ es, e.1.isWellFormed = true ∧ e.2.isWellFormed = true := by
  induction es with
  | nil => simp [haveWellFormed]
  | cons e es ih => simp [haveWellFormed, ih]

/-! ## Displays that are no system names -/

theorem int_not_mem_systemNames (n : Int) : (Number.int n).text ∉ systemNames := by
  cases n with
  | ofNat n =>
    obtain ⟨c, cs, hcs, hc⟩ := Decimal.exists_digit_natText n
    have htext : (Number.int (Int.ofNat n)).text.toList = c :: cs := by
      show n.repr.toList = c :: cs
      rw [Nat.toList_repr, ← hcs]
      rfl
    exact not_mem_systemNames_of_digit htext hc
  | negSucc n =>
    refine not_mem_systemNames_of_mem (c := '-') ?_ (by decide)
    show '-' ∈ ("-" ++ (n + 1).repr).toList
    simp

theorem float_not_mem_systemNames (x : Binary64) : (Number.float x).text ∉ systemNames := by
  show x.text Decimal.plain ∉ systemNames
  cases x with
  | nan => decide
  | infinite negative => cases negative <;> decide
  | finite negative m e =>
    cases negative with
    | true =>
      refine not_mem_systemNames_of_mem (c := '-') ?_ (by decide)
      simp [Binary64.text]
    | false =>
      by_cases hm : m = 0
      · have htext : (Binary64.finite false m e).text Decimal.plain = "0.0" := by
          simp [Binary64.text, hm]
        rw [htext]
        decide
      · obtain ⟨c, cs, hcs, hc⟩ := Decimal.exists_digit_text Decimal.plain (Decimal.shortest m e)
        have htext : ((Binary64.finite false m e).text Decimal.plain).toList = c :: cs := by
          simp [Binary64.text, hm, hcs]
        exact not_mem_systemNames_of_digit htext hc

theorem dateText_not_mem_systemNames (d : Date) (rest : String) :
    d.text ++ rest ∉ systemNames := by
  obtain ⟨c, cs, hcs, hc⟩ := Decimal.exists_digit_padded 4 d.year
  have hlead : d.text.toList
      = c :: (cs ++ '-' :: Decimal.padded 2 d.month ++ '-' :: Decimal.padded 2 d.day) := by
    simp [Date.text, hcs]
  exact append_not_mem_systemNames hlead (digit_not_mem_systemLeads hc) rest

theorem brokenText_not_mem_systemNames (t : Text.BrokenText) :
    Text.CodePoint.toText t.points ∉ systemNames := by
  obtain ⟨p, hp, hbroken⟩ := List.any_eq_true.mp t.broken
  have hshown : p.shown = Char.ofNat 0xFFFD := by
    cases p with
    | char c => cases hbroken
    | surrogate n => rfl
  refine not_mem_systemNames_of_mem (c := Char.ofNat 0xFFFD) ?_ (by decide)
  rw [Text.CodePoint.toText, String.toList_ofList, ← hshown]
  exact List.mem_map_of_mem hp

/-- Only texts and reserved keys are written as system names. -/
theorem text?_of_keyText_mem {k : Value} (hk : k.isWellFormed = true)
    (hmem : k.keyText ∈ systemNames) : k.text? = some k.keyText := by
  cases k with
  | text s => rfl
  | tagKey k => rfl
  | null => exact absurd hmem (by decide)
  | bool b => cases b <;> exact absurd hmem (by decide)
  | int n => exact absurd hmem (int_not_mem_systemNames n)
  | float x => exact absurd hmem (float_not_mem_systemNames x)
  | brokenText t => exact absurd hmem (brokenText_not_mem_systemNames t)
  | list xs =>
    simp only [keyText, display, literal, String.append_assoc] at hmem
    exact absurd hmem (append_not_mem_systemNames rfl (by decide) _)
  | tuple xs =>
    rcases xs with _ | ⟨x, _ | ⟨y, ys⟩⟩ <;>
      simp only [keyText, display, literal, String.append_assoc] at hmem <;>
      exact absurd hmem (append_not_mem_systemNames rfl (by decide) _)
  | map es =>
    simp only [keyText, display, literal, String.append_assoc] at hmem
    exact absurd hmem (append_not_mem_systemNames rfl (by decide) _)
  | set frozen xs =>
    cases frozen <;> cases xs <;>
      simp only [keyText, display, literal, String.append_assoc] at hmem
    · exact absurd hmem (by decide)
    · exact absurd hmem (append_not_mem_systemNames rfl (by decide) _)
    · exact absurd hmem (by decide)
    · exact absurd hmem (append_not_mem_systemNames rfl (by decide) _)
  | bytes bs =>
    simp only [keyText, display, literal, Text.quotedBytes] at hmem
    exact absurd hmem (append_not_mem_systemNames rfl (by decide) _)
  | date d =>
    have := dateText_not_mem_systemNames d ""
    rw [String.append_empty] at this
    exact absurd hmem this
  | datetime t => exact absurd hmem (dateText_not_mem_systemNames t.date _)
  | pointer p =>
    refine absurd hmem (not_mem_systemNames_of_mem (c := '#') ?_ (by decide))
    simp [keyText, display, Pointer.label]
  | objectId o =>
    obtain ⟨_, hshort, _⟩ := lead_of_mem_systemNames hmem
    simp only [isWellFormed, ObjectId.isWellFormed, Bool.and_eq_true, beq_iff_eq] at hk
    exact absurd hshort (by simp [keyText, display, hk.1])
  | regex r =>
    simp only [keyText, display, literal, regexLiteral, call, String.append_assoc] at hmem
    exact absurd hmem (append_not_mem_systemNames rfl (by decide) _)
  | order o =>
    simp only [keyText, display, orderFields, namedFields, List.map_cons, List.map_nil,
      String.intercalate_cons_cons, String.append_assoc] at hmem
    exact absurd hmem (append_not_mem_systemNames rfl (by decide) _)

/-! ## One key for each system name -/

theorem beq_of_text?_eq {a b : Value} {s : String} (ha : a.text? = some s)
    (hb : b.text? = some s) : (a == b) = true := by
  show a.equal b = true
  cases a <;> simp only [text?, reduceCtorEq, Option.some.injEq] at ha <;>
    cases b <;> simp only [text?, reduceCtorEq, Option.some.injEq] at hb <;>
    simp [equal, equalPlain, number?, text?, ha, hb]

/-- Among keys that differ, each system name is written once at most. -/
theorem count_keyText_le_one {ks : List Value} (hdiffer : differ ks = true)
    (hks : ∀ k ∈ ks, k.isWellFormed = true) {name : String} (hname : name ∈ systemNames) :
    (ks.map keyText).count name ≤ 1 := by
  induction ks with
  | nil => simp
  | cons k ks ih =>
    simp only [differ, Bool.and_eq_true, Bool.not_eq_true'] at hdiffer
    have htail := ih hdiffer.2 fun x hx => hks x (List.mem_cons_of_mem k hx)
    rw [List.map_cons, List.count_cons]
    by_cases hk : k.keyText = name
    · have hnone : (ks.map keyText).count name = 0 := by
        rw [List.count_eq_zero, List.mem_map]
        rintro ⟨x, hx, hxname⟩
        have hktext : k.text? = some name := by
          rw [← hk] at hname ⊢
          exact text?_of_keyText_mem (hks k List.mem_cons_self) hname
        have hxtext : x.text? = some name := by
          rw [← hxname] at hname ⊢
          exact text?_of_keyText_mem (hks x (List.mem_cons_of_mem k hx)) hname
        have hin : k.isIn ks = true :=
          List.any_eq_true.mpr ⟨x, hx, beq_of_text?_eq hxtext hktext⟩
        rw [hin] at hdiffer
        cases hdiffer.1
      simp [hnone, hk]
    · simp [hk, htail]

end Value

end DocQuery
