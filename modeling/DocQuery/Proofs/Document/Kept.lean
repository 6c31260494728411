-- SUMMARY: A row is shown without ids and dates exactly when none is in a value that is kept whole.
import DocQuery.Proofs.Document

/-!
# Values that are kept whole

The conversion of a document walks through plain columns, through the documents that are
embedded in it, and through the items of lists. Some values are not walked through but
kept whole: an id that is no object id, a pointer column that holds no text, a timestamp
column that holds no date, an included value that is no mapping, and the fields of a tagged
object. So the wire form of a row is free of ids and dates exactly when the values are that
it keeps whole.
-/

namespace DocQuery

namespace Value

mutual

/-- There is no object id, no day and no point in time in a value. -/
def isConverted : Value → Bool
  | .objectId _ | .date _ | .datetime _ => false
  | .list xs | .tuple xs | .set _ xs => areConverted xs
  | .map es => haveConverted es
  | _ => true

/-- There is none in any of some values. -/
def areConverted : List Value → Bool
  | [] => true
  | x :: xs => isConverted x && areConverted xs

/-- There is none in the keys and the values of some entries. -/
def haveConverted : List (Value × Value) → Bool
  | [] => true
  | (k, v) :: es => isConverted k && isConverted v && haveConverted es

end

theorem areConverted_iff {xs : List Value} :
    areConverted xs = true ↔ ∀ x ∈ xs, x.isConverted = true := by
  induction xs with
  | nil => simp [areConverted]
  | cons x xs ih => rw [areConverted, Bool.and_eq_true, ih, List.forall_mem_cons]

theorem isConverted_object {fields : List (String × Value)} :
    (object fields).isConverted = true ↔ ∀ f ∈ fields, f.2.isConverted = true := by
  rw [object, isConverted]
  induction fields with
  | nil => simp [haveConverted]
  | cons f fields ih =>
    have hkey : (Value.text f.1).isConverted = true := rfl
    rw [List.map_cons, haveConverted, Bool.and_eq_true, hkey, Bool.true_and, ih,
      List.forall_mem_cons]

end Value

namespace Document

/-! ## What is kept -/

/-- A value as it was stored, with the values that are kept whole in it as a document of its
    own and as a value inside one. -/
structure KeptColumn where
  value : Value
  embedded : List Value
  inner : List Value

/-- What is kept of a stored timestamp: a date is converted. -/
def keptTimestamp (v : Value) : List Value :=
  match v with
  | .date _ | .datetime _ => []
  | v => [v]

/-- What is kept of a stored column under a name, with the name that it is shown under. -/
def KeptColumn.shown (name : String) (c : KeptColumn) : Option (String × List Value) :=
  match column name with
  | .id => some ("objectId", [identifier c.value])
  | .timestamp wire => some (wire, keptTimestamp c.value)
  | .pointer wire => some (wire, [storedPointer c.value])
  | .permissions => some ("ACL", [permissions c.value])
  | .included wire => some (wire, c.embedded)
  | .internal => none
  | .plain wire => some (wire, c.inner)

/-- What a document of stored columns keeps. Of two columns that are shown under one name
    only the later counts. -/
def keptOfColumns (columns : List (String × KeptColumn)) : List Value :=
  (Assoc.ofPairs (columns.filterMap fun (name, c) => c.shown name)).flatMap (·.2)

/-- What a mapping inside a document keeps. -/
def keptOfMap (columns : List (String × KeptColumn)) : List Value :=
  let columns := Assoc.ofPairs columns
  if (Assoc.find? "__type" columns).isSome then columns.map fun (_, c) => c.value
  else if (Assoc.find? "_id" columns).isSome then keptOfColumns columns
  else columns.flatMap fun (_, c) => c.inner

mutual

/-- A value with what is kept of it. -/
def kept : Value → KeptColumn
  | .objectId o => ⟨.objectId o, [.objectId o], []⟩
  | .datetime t => ⟨.datetime t, [.datetime t], []⟩
  | .date d => ⟨.date d, [.date d], []⟩
  | .map es =>
    let columns := keptColumns es
    ⟨.map es, keptOfColumns columns, keptOfMap columns⟩
  | .list xs => ⟨.list xs, [.list xs], keptItems xs⟩
  | .tuple xs => ⟨.tuple xs, [.tuple xs], keptItems xs⟩
  | v => ⟨v, [v], [v]⟩

/-- What is kept of items inside a document. -/
def keptItems : List Value → List Value
  | [] => []
  | x :: xs => (kept x).inner ++ keptItems xs

/-- The columns of a mapping with what is kept of them. -/
def keptColumns : List (Value × Value) → List (String × KeptColumn)
  | [] => []
  | (k, v) :: es => (k.keyText, kept v) :: keptColumns es

end

/-- The values that the wire form of a document keeps whole. -/
def keptIn : Value → List Value
  | .map es => keptOfColumns (keptColumns es)
  | _ => []

/-! ## Converted outcomes -/

/-- No id and no date is among some values. -/
def AllConverted (vs : List Value) : Prop :=
  ∀ v ∈ vs, v.isConverted = true

/-- A result is converted when the values are that are kept in it. -/
def IsConvertedWith (w : Value) (vs : List Value) : Prop :=
  w.isConverted = true ↔ AllConverted vs

/-- The result of an outcome is converted when the values are that are kept in it. -/
def ConvertsWith (o : Outcome) (vs : List Value) : Prop :=
  ∀ w, o = .ok w → IsConvertedWith w vs

namespace ConvertsWith

theorem whole (v : Value) : ConvertsWith (.ok v) [v] := by
  rintro _ ⟨⟩
  rw [IsConvertedWith, AllConverted, List.forall_mem_singleton]

theorem nothing {o : Outcome} (h : ∀ w, o = .ok w → w.isConverted = true) : ConvertsWith o [] :=
  fun w hw => iff_of_true (h w hw) nofun

theorem object {x : Except Error (List (String × Value))} {vs : List Value}
    (h : ∀ fields, x = .ok fields →
      ((∀ f ∈ fields, f.2.isConverted = true) ↔ AllConverted vs)) :
    ConvertsWith (x.map Value.object) vs := by
  intro w hw
  obtain ⟨fields, hfields, rfl⟩ := exists_of_map_eq_ok hw
  rw [IsConvertedWith, Value.isConverted_object]
  exact h fields hfields

theorem list {x : Except Error (List Value)} {vs : List Value}
    (h : ∀ ws, x = .ok ws → (AllConverted ws ↔ AllConverted vs)) :
    ConvertsWith (x.map Value.list) vs := by
  intro w hw
  obtain ⟨ws, hws, rfl⟩ := exists_of_map_eq_ok hw
  rw [IsConvertedWith, Value.isConverted, Value.areConverted_iff]
  exact h ws hws

end ConvertsWith

theorem isConverted_date {v w : Value} (h : Wire.date v = .ok w) : w.isConverted = true := by
  obtain ⟨s, _, rfl⟩ := exists_of_map_eq_ok h
  rfl

theorem timestamp_convertsWith (v : Value) : ConvertsWith (timestamp v) (keptTimestamp v) := by
  cases v with
  | date d => exact .nothing fun w => isConverted_date
  | datetime t => exact .nothing fun w => isConverted_date
  | text s | brokenText t | tagKey k =>
    rintro _ ⟨⟩
    exact iff_of_true rfl (List.forall_mem_singleton.mpr rfl)
  | _ => exact .whole _

/-- A stored column beside what is kept of it. -/
structure IsKept (c : StoredColumn) (k : KeptColumn) : Prop where
  value : c.value = k.value
  embedded : ConvertsWith c.embedded k.embedded
  inner : ConvertsWith c.inner k.inner

/-- Related values under one name. -/
abbrev UnderOneName {α β : Type} (R : α → β → Prop) (e : String × α) (f : String × β) : Prop :=
  e.1 = f.1 ∧ R e.2 f.2

/-- A column is shown with a result that converts with what is kept of the column. -/
theorem IsKept.shown {c : StoredColumn} {k : KeptColumn} (h : IsKept c k) (name : String) :
    Option.Rel (UnderOneName ConvertsWith) (c.outcome name) (k.shown name) := by
  rw [StoredColumn.outcome, columnOutcome, KeptColumn.shown, h.value]
  cases column name with
  | id => exact .some ⟨rfl, .whole _⟩
  | timestamp wire => exact .some ⟨rfl, timestamp_convertsWith _⟩
  | pointer wire => exact .some ⟨rfl, .whole _⟩
  | permissions => exact .some ⟨rfl, .whole _⟩
  | included wire => exact .some ⟨rfl, h.embedded⟩
  | internal => exact .none
  | plain wire => exact .some ⟨rfl, h.inner⟩

/-! ## Documents and mappings -/

section Columns

variable {columns : List (String × StoredColumn)} {keeps : List (String × KeptColumn)}

/-- The results of outcomes beside what is kept in them. -/
theorem forall₂_of_collect {os : List (String × Outcome)} {ks : List (String × List Value)}
    (h : List.Forall₂ (UnderOneName ConvertsWith) os ks) {fields : List (String × Value)}
    (hfields : collect os = .ok fields) :
    List.Forall₂ (UnderOneName IsConvertedWith) fields ks := by
  induction h generalizing fields with
  | nil =>
    cases hfields
    exact .nil
  | cons hhead _ ih =>
    rw [collect] at hfields
    obtain ⟨w, hw, hfields⟩ := exists_of_bind_eq_ok hfields
    obtain ⟨ws, hws, hfields⟩ := exists_of_bind_eq_ok hfields
    cases hfields
    exact .cons ⟨hhead.1, hhead.2 w hw⟩ (ih hws)

/-- The fields are converted when the values are that are kept in them. -/
theorem forall_isConverted_iff {fields : List (String × Value)} {ks : List (String × List Value)}
    (h : List.Forall₂ (UnderOneName IsConvertedWith) fields ks) :
    (∀ f ∈ fields, f.2.isConverted = true) ↔ AllConverted (ks.flatMap (·.2)) := by
  rw [AllConverted, List.forall_mem_flatMap]
  exact forall_mem_iff_of_forall₂ h fun f k hfk => hfk.2

/-- A document is converted when the values are that it keeps. -/
theorem ofColumns_convertsWith (h : List.Forall₂ (UnderOneName IsKept) columns keeps) :
    ConvertsWith ((ofColumns columns).map Value.object) (keptOfColumns keeps) := by
  have hshown : List.Forall₂ (UnderOneName ConvertsWith)
      ((columns.map fun c => c.2.outcome c.1).filterMap id)
      (keeps.filterMap fun k => k.2.shown k.1) := by
    rw [List.filterMap_map]
    refine List.rel_filterMap (fun c k hck => ?_) h
    show Option.Rel _ (c.2.outcome c.1) (k.2.shown k.1)
    rw [← hck.1]
    exact hck.2.shown c.1
  refine .object fun fields hfields => ?_
  obtain ⟨found, hfound, rfl⟩ := exists_of_map_eq_ok hfields
  exact forall_isConverted_iff (Assoc.ofPairs_forall₂ (forall₂_of_collect hshown hfound))

/-- Both find a column or neither does. -/
theorem isSome_find?_eq (h : List.Forall₂ (UnderOneName IsKept) columns keeps) (name : String) :
    (Assoc.find? name columns).isSome = (Assoc.find? name keeps).isSome := by
  have hkeys := Assoc.keys_of_forall₂ h fun _ _ hck => hck.1
  rw [Bool.eq_iff_iff, Assoc.find?_isSome_iff, Assoc.find?_isSome_iff, hkeys]

/-- A mapping inside a document is converted when the values are that it keeps. -/
theorem innerMap_convertsWith (h : List.Forall₂ (UnderOneName IsKept) columns keeps) :
    ConvertsWith (innerMap columns) (keptOfMap keeps) := by
  have hjoined := Assoc.ofPairs_forall₂ h
  simp only [innerMap, keptOfMap, isSome_find?_eq hjoined]
  split_ifs
  · rintro _ ⟨⟩
    rw [IsConvertedWith, Value.isConverted_object, AllConverted, List.forall_mem_map,
      List.forall_mem_map]
    refine forall_mem_iff_of_forall₂ hjoined fun c k hck => ?_
    rw [hck.2.value]
  · exact ofColumns_convertsWith hjoined
  · have hinner : List.Forall₂ (UnderOneName ConvertsWith)
        ((Assoc.ofPairs columns).map fun c => (c.1, c.2.inner))
        ((Assoc.ofPairs keeps).map fun k => (k.1, k.2.inner)) :=
      List.rel_map (fun c k hck => ⟨hck.1, hck.2.inner⟩) hjoined
    refine .object fun fields hfields => ?_
    have hfound := forall_isConverted_iff (forall₂_of_collect hinner hfields)
    rwa [List.flatMap_map] at hfound

end Columns

mutual

theorem isKept : ∀ v : Value, IsKept (stored v) (kept v)
  | .objectId o => ⟨rfl, .whole _, .nothing fun w hw => by cases hw; rfl⟩
  | .datetime t => ⟨rfl, .whole _, .nothing fun w => isConverted_date⟩
  | .date d => ⟨rfl, .whole _, .nothing fun w hw => by cases hw; rfl⟩
  | .map es =>
    ⟨rfl, ofColumns_convertsWith (areKept es), innerMap_convertsWith (areKept es)⟩
  | .list xs => ⟨rfl, .whole _, .list (inners_convertWith xs)⟩
  | .tuple xs => ⟨rfl, .whole _, .list (inners_convertWith xs)⟩
  | .null | .bool _ | .int _ | .float _ | .text _ | .brokenText _ | .tagKey _ | .set _ _
  | .bytes _ | .pointer _ | .regex _ | .order _ => ⟨rfl, .whole _, .whole _⟩

theorem inners_convertWith : ∀ (xs ws : List Value), inners xs = .ok ws →
    (AllConverted ws ↔ AllConverted (keptItems xs))
  | [], _ => by
    rintro ⟨⟩
    rfl
  | x :: xs, _ => by
    intro h
    rw [inners] at h
    obtain ⟨w, hw, h⟩ := exists_of_bind_eq_ok h
    obtain ⟨ws, hws, h⟩ := exists_of_bind_eq_ok h
    cases h
    rw [keptItems, AllConverted, AllConverted, List.forall_mem_cons, List.forall_mem_append]
    exact and_congr ((isKept x).inner w hw) (inners_convertWith xs ws hws)

theorem areKept : ∀ es : List (Value × Value),
    List.Forall₂ (UnderOneName IsKept) (storedColumns es) (keptColumns es)
  | [] => .nil
  | (_, v) :: es => .cons ⟨rfl, isKept v⟩ (areKept es)

end

theorem toWire_map (es : List (Value × Value)) :
    toWire (.map es) .null = (ofColumns (storedColumns es)).map Value.object :=
  rfl

/-- A document without points in time outside of the calendar is shown, and what is shown
    for a document has no ids and no dates exactly when there are none in the values that
    it keeps whole. -/
theorem isConverted_toWire (doc : Value) :
    (doc.isTimely = true → ∃ w, toWire doc .null = .ok w) ∧
      ∀ w, toWire doc .null = .ok w →
        (w.isConverted = true ↔ ∀ v ∈ keptIn doc, v.isConverted = true) := by
  refine ⟨exists_toWire, ?_⟩
  cases doc with
  | map es =>
    rw [toWire_map]
    exact ofColumns_convertsWith (areKept es)
  | _ =>
    rintro _ ⟨⟩
    exact iff_of_true rfl nofun

/-- An album with its songs is shown without ids and dates. -/
theorem isConverted_toWire_album :
    let song : Value := .object [("_id", .objectId ⟨"5f1e"⟩), ("released", .date ⟨1970, 3, 26⟩)]
    let album : Value := .object [("_id", .objectId ⟨"5f1d"⟩), ("_created_at", .date ⟨2020, 1, 2⟩),
      ("_included_first", song), ("songs", .list [song])]
    album.isTimely = true ∧
      ∃ w, toWire album .null = .ok w ∧ (∀ v ∈ keptIn album, v.isConverted = true) ∧
        w.isConverted = true := by
  intro song album
  have htimely : album.isTimely = true := rfl
  have hkept : ∀ v ∈ keptIn album, v.isConverted = true := by decide
  obtain ⟨w, hw⟩ := (isConverted_toWire album).1 htimely
  exact ⟨htimely, w, hw, hkept, ((isConverted_toWire album).2 w hw).mpr hkept⟩

/-- The row of a group keeps the point in time that it is grouped by. -/
theorem group_key_kept :
    ∃ w, toWire (.object [("_id", .datetime ⟨⟨2023, 9, 15⟩, 12, 0, 0, 0, some 0⟩),
        ("count", .int 3)]) .null = .ok w ∧ w.isConverted = false :=
  ⟨_, rfl, rfl⟩

end Document

end DocQuery
