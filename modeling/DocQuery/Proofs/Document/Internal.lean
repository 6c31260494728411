-- SUMMARY: Internal columns are shown only in values that are kept whole.
import DocQuery.Proofs.Document.Kept
import Mathlib.Data.List.Basic
import Mathlib.Data.Prod.Basic

/-!
# Internal columns

A column is internal when its name begins with an underscore and has no use of its own.
Internal columns are not shown: neither those of a document nor those of the documents that
the conversion reaches inside of it. What is kept whole is not reached. So two documents
that differ in the values of internal columns only are converted alike, and their wire
forms are equal exactly when the values are that they keep whole.
-/

namespace DocQuery.Document

open Value (textEntries)

/-! ## Masks -/

/-- A name that begins with an underscore and is none of the names with a use. -/
def isInternal (name : String) : Bool :=
  name.toList.head? = some '_' &&
    !List.contains ["_id", "_created_at", "_updated_at", "_acl"] name &&
    !FieldName.hasMark FieldName.pointerMark name &&
    !FieldName.hasMark FieldName.includedMark name

theorem column_of_isInternal {name : String} (h : isInternal name = true) :
    column name = .internal := by
  simp only [isInternal, List.contains_cons, List.contains_nil, Bool.or_false, Bool.not_or,
    Bool.and_eq_true, decide_eq_true_eq, Bool.not_eq_true', beq_eq_false_iff_ne] at h
  obtain ⟨⟨⟨hlead, hid, hcreated, hupdated, hacl⟩, hpointer⟩, hincluded⟩ := h
  rw [column, if_neg hid, if_neg hcreated, if_neg hupdated, hpointer, if_neg hacl, hincluded,
    if_pos hlead]
  rfl

/-- The entries are those of a document: there is an id among them. -/
def carriesId (es : List (Value × Value)) : Bool :=
  (es.map fun e => e.1.keyText).contains "_id"

mutual

/-- A value with null in place of every value under an internal name of a document in it. -/
def masked : Value → Value
  | .list xs => .list (maskedItems xs)
  | .tuple xs => .tuple (maskedItems xs)
  | .map es => .map (maskedEntries (carriesId es) es)
  | v => v

/-- Items with the documents in them masked. -/
def maskedItems : List Value → List Value
  | [] => []
  | x :: xs => masked x :: maskedItems xs

/-- Entries, perhaps of a document itself, with the documents in them masked. -/
def maskedEntries (document : Bool) : List (Value × Value) → List (Value × Value)
  | [] => []
  | (k, v) :: es =>
    (k, if document && isInternal k.keyText then .null else masked v) :: maskedEntries document es

end

/-- A document with null in place of every value under an internal name, of the document or
    of a document in it. -/
def maskedDocument : Value → Value
  | .map es => .map (maskedEntries true es)
  | v => v

theorem keys_maskedEntries (document : Bool) (es : List (Value × Value)) :
    Assoc.keys (maskedEntries document es) = Assoc.keys es := by
  induction es with
  | nil => rfl
  | cons e es ih => rw [maskedEntries, Assoc.keys_cons, Assoc.keys_cons, ih]

theorem carriesId_eq {a b : Bool} {es es' : List (Value × Value)}
    (h : maskedEntries a es = maskedEntries b es') : carriesId es = carriesId es' := by
  have hkeys : Assoc.keys es = Assoc.keys es' := by
    rw [← keys_maskedEntries a, h, keys_maskedEntries]
  have htexts : ∀ es : List (Value × Value),
      carriesId es = ((Assoc.keys es).map Value.keyText).contains "_id" := fun es => by
    rw [carriesId, Assoc.keys, List.map_map]
    rfl
  rw [htexts, htexts, hkeys]

/-! ## Values with the same mask -/

theorem eq_list_of_masked {v : Value} {ys : List Value} (h : .list ys = masked v) :
    ∃ xs, v = .list xs ∧ ys = maskedItems xs := by
  cases v with
  | list xs => exact ⟨xs, rfl, Value.list.inj h⟩
  | _ => cases h

theorem eq_tuple_of_masked {v : Value} {ys : List Value} (h : .tuple ys = masked v) :
    ∃ xs, v = .tuple xs ∧ ys = maskedItems xs := by
  cases v with
  | tuple xs => exact ⟨xs, rfl, Value.tuple.inj h⟩
  | _ => cases h

theorem eq_map_of_masked {v : Value} {fs : List (Value × Value)} (h : .map fs = masked v) :
    ∃ es, v = .map es ∧ fs = maskedEntries (carriesId es) es := by
  cases v with
  | map es => exact ⟨es, rfl, Value.map.inj h⟩
  | _ => cases h

/-- There are no values inside the value that the conversion may walk through. -/
def isLeaf : Value → Bool
  | .list _ | .tuple _ | .map _ => false
  | _ => true

theorem masked_of_isLeaf {v : Value} (h : isLeaf v = true) : masked v = v := by
  cases v with
  | list xs | tuple xs | map es => cases h
  | _ => rfl

/-- A leaf has no other mask than itself. -/
theorem eq_of_masked {v v' : Value} (h : masked v = masked v') (hleaf : isLeaf v = true) :
    v' = v := by
  rw [masked_of_isLeaf hleaf] at h
  subst h
  cases v' with
  | list xs | tuple xs | map es => cases hleaf
  | _ => rfl

theorem carriesId_of_not_mem {es : List (Value × Value)}
    (h : "_id" ∉ Assoc.keys (textEntries es)) : carriesId es = false := by
  rw [carriesId, ← Bool.not_eq_true, List.contains_iff_mem]
  rwa [Assoc.keys, textEntries, List.map_map] at h

/-! ## Results that are tied -/

/-- Two results are equal exactly when the values are that are kept in them. -/
structure Tied {α : Type} (a a' : α) (ks ks' : List Value) : Prop where
  length : ks.length = ks'.length
  eq_iff : a = a' ↔ ks = ks'

/-- Outcomes that fail alike and have results that are tied. -/
abbrev Alike {α : Type} (x x' : Except Error α) (ks ks' : List Value) : Prop :=
  Agree (fun a a' => Tied a a' ks ks') x x'

namespace Tied

variable {α β : Type} {a a' : α} {ks ks' : List Value}

theorem refl (a : α) (ks : List Value) : Tied a a ks ks :=
  ⟨rfl, iff_of_true rfl rfl⟩

theorem whole (v v' : Value) : Tied v v' [v] [v'] :=
  ⟨rfl, List.singleton_inj.symm⟩

theorem map {f : α → β} (hf : f.Injective) (h : Tied a a' ks ks') :
    Tied (f a) (f a') ks ks' :=
  ⟨h.length, hf.eq_iff.trans h.eq_iff⟩

theorem cons {as as' : List α} {ls ls' : List Value} (h : Tied a a' ks ks')
    (hrest : Tied as as' ls ls') : Tied (a :: as) (a' :: as') (ks ++ ls) (ks' ++ ls') := by
  refine ⟨by rw [List.length_append, List.length_append, h.length, hrest.length], ?_⟩
  rw [List.cons.injEq, h.eq_iff, hrest.eq_iff]
  refine ⟨?_, fun hks => List.append_inj hks h.length⟩
  rintro ⟨rfl, rfl⟩
  rfl

end Tied

theorem alike_map {α β : Type} {x x' : Except Error α} {ks ks' : List Value} {f : α → β}
    (hf : f.Injective) (h : Alike x x' ks ks') : Alike (x.map f) (x'.map f) ks ks' :=
  h.map fun _ _ => Tied.map hf

/-- Two tied results, each with the values that are kept in it. -/
structure Pair where
  left : Value
  right : Value
  keptLeft : List Value
  keptRight : List Value
  tied : Tied left right keptLeft keptRight

/-- A part of pairs under their names. -/
abbrev part {α : Type} (f : Pair → α) (pairs : List (String × Pair)) : List (String × α) :=
  pairs.map fun e => (e.1, f e.2)

theorem ofPairs_part {α : Type} (f : Pair → α) (pairs : List (String × Pair)) :
    Assoc.ofPairs (part f pairs) = part f (Assoc.ofPairs pairs) :=
  Assoc.ofPairs_map (fun _ _ => rfl) f pairs

/-- Fields that are tied one by one are tied as a whole. -/
theorem tied_fields (pairs : List (String × Pair)) :
    Tied (part Pair.left pairs) (part Pair.right pairs)
      ((part Pair.keptLeft pairs).flatMap (·.2)) ((part Pair.keptRight pairs).flatMap (·.2)) := by
  induction pairs with
  | nil => exact .refl _ _
  | cons e pairs ih => exact (e.2.tied.map (Prod.mk_right_injective e.1)).cons ih

/-- Outcomes under the same names, each pair alike with what is kept of it. -/
inductive AllAlike : List (String × Outcome) → List (String × Outcome) →
    List (String × List Value) → List (String × List Value) → Prop
  | nil : AllAlike [] [] [] []
  | cons (name : String) {o o' : Outcome} {os os' : List (String × Outcome)}
    {vs vs' : List Value} {ks ks' : List (String × List Value)} (h : Alike o o' vs vs')
    (hrest : AllAlike os os' ks ks') :
    AllAlike ((name, o) :: os) ((name, o') :: os') ((name, vs) :: ks) ((name, vs') :: ks')

/-- Outcomes that are alike fail alike, or their results are pairs that are tied. -/
theorem AllAlike.collect {os os' : List (String × Outcome)} {ks ks' : List (String × List Value)}
    (h : AllAlike os os' ks ks') :
    Agree (fun fields fields' => ∃ pairs : List (String × Pair),
        fields = part Pair.left pairs ∧ fields' = part Pair.right pairs ∧
          ks = part Pair.keptLeft pairs ∧ ks' = part Pair.keptRight pairs)
      (collect os) (collect os') := by
  induction h with
  | nil => exact .ok ⟨[], rfl, rfl, rfl, rfl⟩
  | @cons name o o' os os' vs vs' ks ks' hhead _ ih =>
    rw [Document.collect, Document.collect]
    refine hhead.bind fun w w' hw => ih.bind fun ws ws' hws => .ok ?_
    obtain ⟨pairs, rfl, rfl, rfl, rfl⟩ := hws
    exact ⟨(name, ⟨w, w', vs, vs', hw⟩) :: pairs, rfl, rfl, rfl, rfl⟩

theorem AllAlike.object {os os' : List (String × Outcome)} {ks ks' : List (String × List Value)}
    (h : AllAlike os os' ks ks') :
    Alike ((Document.collect os).map Value.object) ((Document.collect os').map Value.object)
      (ks.flatMap (·.2)) (ks'.flatMap (·.2)) := by
  refine h.collect.map fun fields fields' hpairs => ?_
  obtain ⟨pairs, rfl, rfl, rfl, rfl⟩ := hpairs
  exact (tied_fields pairs).map Value.object_injective

theorem AllAlike.document {os os' : List (String × Outcome)} {ks ks' : List (String × List Value)}
    (h : AllAlike os os' ks ks') :
    Alike (((Document.collect os).map Assoc.ofPairs).map Value.object)
      (((Document.collect os').map Assoc.ofPairs).map Value.object)
      ((Assoc.ofPairs ks).flatMap (·.2)) ((Assoc.ofPairs ks').flatMap (·.2)) := by
  refine alike_map Value.object_injective (h.collect.map fun fields fields' hpairs => ?_)
  obtain ⟨pairs, rfl, rfl, rfl, rfl⟩ := hpairs
  simp only [ofPairs_part]
  exact tied_fields (Assoc.ofPairs pairs)

/-! ## Values that are shown alike -/

/-- Two values are shown alike, as documents of their own and inside of documents. -/
structure ShownAlike (v v' : Value) : Prop where
  masked : masked v = masked v'
  embedded : Alike (stored v).embedded (stored v').embedded (kept v).embedded (kept v').embedded
  inner : Alike (stored v).inner (stored v').inner (kept v).inner (kept v').inner

theorem ShownAlike.refl (v : Value) : ShownAlike v v :=
  ⟨rfl, .refl fun _ _ => .refl _ _, .refl fun _ _ => .refl _ _⟩

theorem value_stored (v : Value) : (stored v).value = v := by
  cases v <;> rfl

theorem value_kept (v : Value) : (kept v).value = v := by
  cases v <;> rfl

theorem timestamp_alike {v v' : Value} (h : masked v = masked v') :
    Alike (timestamp v) (timestamp v') (keptTimestamp v) (keptTimestamp v') := by
  cases v with
  | list xs =>
    obtain ⟨xs', rfl, _⟩ := eq_list_of_masked h
    exact .ok (.whole _ _)
  | tuple xs =>
    obtain ⟨xs', rfl, _⟩ := eq_tuple_of_masked h
    exact .ok (.whole _ _)
  | map es =>
    obtain ⟨es', rfl, _⟩ := eq_map_of_masked h
    exact .ok (.whole _ _)
  | _ =>
    obtain rfl := eq_of_masked h rfl
    exact .refl fun _ _ => .refl _ _

/-! ## Columns -/

/-- The outcomes for two columns of one name, beside what is kept of them. -/
inductive ColumnAlike : Option (String × Outcome) → Option (String × Outcome) →
    Option (String × List Value) → Option (String × List Value) → Prop
  | hidden : ColumnAlike none none none none
  | shown (name : String) {o o' : Outcome} {vs vs' : List Value} (h : Alike o o' vs vs') :
    ColumnAlike (some (name, o)) (some (name, o')) (some (name, vs)) (some (name, vs'))

theorem ShownAlike.column {v v' : Value} (h : ShownAlike v v') (name : String) :
    ColumnAlike ((stored v).outcome name) ((stored v').outcome name)
      ((kept v).shown name) ((kept v').shown name) := by
  simp only [StoredColumn.outcome, columnOutcome, KeptColumn.shown, value_stored, value_kept]
  cases Document.column name with
  | id => exact .shown _ (.ok (.whole _ _))
  | timestamp wire => exact .shown _ (timestamp_alike h.masked)
  | pointer wire => exact .shown _ (.ok (.whole _ _))
  | permissions => exact .shown _ (.ok (.whole _ _))
  | included wire => exact .shown _ h.embedded
  | internal => exact .hidden
  | plain wire => exact .shown _ h.inner

/-- Values under a name that are shown alike, unless the name is an internal one of a
    document. -/
def AlikeUnder (document : Bool) (name : String) (v v' : Value) : Prop :=
  (document = true ∧ isInternal name = true) ∨ ShownAlike v v'

/-- Fields with the same names that are shown alike. -/
abbrev FieldsAlike (document : Bool) (fs fs' : List (String × Value)) : Prop :=
  List.Forall₂ (fun f f' => f.1 = f'.1 ∧ AlikeUnder document f.1 f.2 f'.2) fs fs'

theorem AlikeUnder.column {name : String} {v v' : Value} (h : AlikeUnder true name v v') :
    ColumnAlike ((stored v).outcome name) ((stored v').outcome name)
      ((kept v).shown name) ((kept v').shown name) := by
  obtain ⟨_, hinternal⟩ | h := h
  · simp only [StoredColumn.outcome, columnOutcome, KeptColumn.shown,
      column_of_isInternal hinternal]
    exact .hidden
  · exact h.column name

section Fields

variable {document : Bool} {fs fs' : List (String × Value)}

theorem FieldsAlike.weaken (h : FieldsAlike document fs fs') : FieldsAlike true fs fs' :=
  h.imp fun _ _ hff => ⟨hff.1, hff.2.imp_left fun hinternal => ⟨rfl, hinternal.2⟩⟩

theorem FieldsAlike.columns (h : FieldsAlike true fs fs') :
    AllAlike (fs.filterMap fun f => (stored f.2).outcome f.1)
      (fs'.filterMap fun f => (stored f.2).outcome f.1)
      (fs.filterMap fun f => (kept f.2).shown f.1)
      (fs'.filterMap fun f => (kept f.2).shown f.1) := by
  induction h with
  | nil => exact .nil
  | @cons f f' fs fs' hhead _ ih =>
    obtain ⟨name, v⟩ := f
    obtain ⟨name', v'⟩ := f'
    obtain ⟨rfl, hv⟩ := hhead
    have hcolumn := hv.column
    simp only [List.filterMap_cons]
    generalize (stored v).outcome name = o, (stored v').outcome name = o',
      (kept v).shown name = ks, (kept v').shown name = ks' at hcolumn ⊢
    cases hcolumn with
    | hidden => exact ih
    | shown name h => exact .cons name h ih

theorem FieldsAlike.inners (h : FieldsAlike false fs fs') :
    AllAlike (fs.map fun f => (f.1, (stored f.2).inner))
      (fs'.map fun f => (f.1, (stored f.2).inner))
      (fs.map fun f => (f.1, (kept f.2).inner)) (fs'.map fun f => (f.1, (kept f.2).inner)) := by
  induction h with
  | nil => exact .nil
  | @cons f f' fs fs' hhead _ ih =>
    obtain ⟨name, v⟩ := f
    obtain ⟨name', v'⟩ := f'
    obtain ⟨rfl, ⟨⟨⟩, _⟩ | hv⟩ := hhead
    exact .cons name hv.inner ih

theorem FieldsAlike.values (h : FieldsAlike document fs fs') :
    Tied fs fs' (fs.map fun f => f.2) (fs'.map fun f => f.2) := by
  induction h with
  | nil => exact .refl _ _
  | @cons f f' fs fs' hhead _ ih =>
    obtain ⟨name, v⟩ := f
    obtain ⟨name', v'⟩ := f'
    obtain ⟨rfl, _⟩ := hhead
    exact ((Tied.whole v v').map (Prod.mk_right_injective name)).cons ih

theorem FieldsAlike.ofPairs (h : FieldsAlike document fs fs') :
    FieldsAlike document (Assoc.ofPairs fs) (Assoc.ofPairs fs') :=
  Assoc.ofPairs_forall₂_keyed (AlikeUnder document) h

theorem FieldsAlike.keys (h : FieldsAlike document fs fs') : Assoc.keys fs = Assoc.keys fs' :=
  Assoc.keys_of_forall₂ h fun _ _ hff => hff.1

/-! ## Documents and mappings -/

/-- Fields as stored columns. -/
abbrev columnsOf (fs : List (String × Value)) : List (String × StoredColumn) :=
  fs.map fun f => (f.1, stored f.2)

/-- Fields as columns with what is kept of them. -/
abbrev keepsOf (fs : List (String × Value)) : List (String × KeptColumn) :=
  fs.map fun f => (f.1, kept f.2)

theorem storedColumns_eq (es : List (Value × Value)) :
    storedColumns es = columnsOf (textEntries es) := by
  induction es with
  | nil => rfl
  | cons e es ih =>
    rw [storedColumns, ih]
    rfl

theorem keptColumns_eq (es : List (Value × Value)) :
    keptColumns es = keepsOf (textEntries es) := by
  induction es with
  | nil => rfl
  | cons e es ih =>
    rw [keptColumns, ih]
    rfl

/-- Documents are shown alike up to what they keep. -/
theorem FieldsAlike.shown (h : FieldsAlike true fs fs') :
    Alike ((ofColumns (columnsOf fs)).map Value.object)
      ((ofColumns (columnsOf fs')).map Value.object)
      (keptOfColumns (keepsOf fs)) (keptOfColumns (keepsOf fs')) := by
  simp only [ofColumns, assemble, keptOfColumns, List.filterMap_map, List.map_map]
  exact h.columns.document

theorem ofPairs_columnsOf (fs : List (String × Value)) :
    Assoc.ofPairs (columnsOf fs) = columnsOf (Assoc.ofPairs fs) :=
  Assoc.ofPairs_map (fun _ _ => rfl) stored fs

theorem ofPairs_keepsOf (fs : List (String × Value)) :
    Assoc.ofPairs (keepsOf fs) = keepsOf (Assoc.ofPairs fs) :=
  Assoc.ofPairs_map (fun _ _ => rfl) kept fs

theorem isSome_find?_map {α : Type} (f : Value → α) (name : String)
    (fs : List (String × Value)) :
    (Assoc.find? name (fs.map fun e => (e.1, f e.2))).isSome =
      (Assoc.keys fs).contains name := by
  rw [Bool.eq_iff_iff, Assoc.find?_isSome_iff, List.contains_iff_mem, Assoc.keys, List.map_map]
  rfl

/-- Mappings inside of documents are shown alike up to what they keep. Without an id, no
    field of them is internal. -/
theorem FieldsAlike.innerMap (h : FieldsAlike document fs fs')
    (hid : "_id" ∉ Assoc.keys fs → document = false) :
    Alike (innerMap (columnsOf fs)) (innerMap (columnsOf fs'))
      (keptOfMap (keepsOf fs)) (keptOfMap (keepsOf fs')) := by
  have hjoined := h.ofPairs
  simp only [Document.innerMap, keptOfMap, ofPairs_columnsOf, ofPairs_keepsOf, isSome_find?_map,
    ← hjoined.keys]
  split_ifs with htag hdocument
  · simp only [List.map_map, Function.comp_def, value_stored, value_kept, Prod.eta, List.map_id']
    exact .ok (hjoined.values.map Value.object_injective)
  · exact (hjoined.weaken).shown
  · have hnone : document = false := hid fun hmem =>
      hdocument (List.contains_iff_mem.mpr (Assoc.mem_keys_ofPairs.mpr hmem))
    subst hnone
    have hinners := hjoined.inners.object
    simp only [List.map_map, List.flatMap_map] at hinners ⊢
    exact hinners

end Fields

/-! ## Values inside of documents -/

mutual

theorem shownAlike : ∀ v v' : Value, masked v = masked v' → ShownAlike v v'
  | .list xs, v' => by
    intro h
    obtain ⟨xs', rfl, hitems⟩ := eq_list_of_masked h
    have hinner := alike_map (fun _ _ => Value.list.inj) (itemsAlike xs xs' hitems)
    exact ⟨h, .ok (.whole _ _), hinner⟩
  | .tuple xs, v' => by
    intro h
    obtain ⟨xs', rfl, hitems⟩ := eq_tuple_of_masked h
    have hinner := alike_map (fun _ _ => Value.list.inj) (itemsAlike xs xs' hitems)
    exact ⟨h, .ok (.whole _ _), hinner⟩
  | .map es, v' => by
    intro h
    obtain ⟨es', rfl, hentries⟩ := eq_map_of_masked h
    rw [← carriesId_eq hentries] at hentries
    have hfields := fieldsAlike (carriesId es) es es' hentries
    have hembedded := hfields.weaken.shown
    have hinner := hfields.innerMap carriesId_of_not_mem
    simp only [← storedColumns_eq, ← keptColumns_eq] at hembedded hinner
    exact ⟨h, hembedded, hinner⟩
  | .null, _ | .bool _, _ | .int _, _ | .float _, _ | .text _, _ | .brokenText _, _
  | .tagKey _, _ | .set _ _, _ | .bytes _, _ | .date _, _ | .datetime _, _ | .pointer _, _
  | .objectId _, _ | .regex _, _ | .order _, _ => fun h => eq_of_masked h rfl ▸ .refl _

theorem itemsAlike : ∀ xs xs' : List Value, maskedItems xs = maskedItems xs' →
    Alike (Document.inners xs) (Document.inners xs') (keptItems xs) (keptItems xs')
  | [], [], _ => .ok (.refl _ _)
  | x :: xs, x' :: xs', h => by
    rw [maskedItems, maskedItems, List.cons.injEq] at h
    rw [inners, inners, keptItems, keptItems]
    refine (shownAlike x x' h.1).inner.bind fun w w' hw => ?_
    exact (itemsAlike xs xs' h.2).bind fun ws ws' hws => .ok (hw.cons hws)

theorem fieldsAlike (document : Bool) : ∀ es es' : List (Value × Value),
    maskedEntries document es = maskedEntries document es' →
      FieldsAlike document (textEntries es) (textEntries es')
  | [], [], _ => .nil
  | (k, v) :: es, (k', v') :: es', h => by
    rw [maskedEntries, maskedEntries, List.cons.injEq, Prod.mk.injEq] at h
    obtain ⟨⟨rfl, hv⟩, hrest⟩ := h
    refine .cons ⟨rfl, ?_⟩ (fieldsAlike document es es' hrest)
    split at hv
    · rename_i hinternal
      exact .inl (Bool.and_eq_true _ _ ▸ hinternal)
    · exact .inr (shownAlike v v' hv)

end

/-- Where two documents differ in the values under internal names only, of themselves or of
    documents in them, they are shown alike: both fail with the same error, or their wire
    forms are equal exactly when the values are that they keep whole. -/
theorem toWire_eq_iff {doc doc' : Value} (h : maskedDocument doc = maskedDocument doc') :
    Agree (fun w w' => w = w' ↔ keptIn doc = keptIn doc') (toWire doc .null)
      (toWire doc' .null) := by
  cases doc with
  | map es =>
    cases doc' with
    | map es' =>
      have hshown := (fieldsAlike true es es' (Value.map.inj h)).shown
      simp only [← storedColumns_eq, ← keptColumns_eq] at hshown
      rw [toWire_map, toWire_map]
      exact hshown.imp fun _ _ => Tied.eq_iff
    | _ => cases h
  | _ =>
    cases doc' with
    | map es' => cases h
    | _ => exact .ok (iff_of_true rfl rfl)

/-- Passwords and sessions of a user and of an included friend are not shown. -/
theorem toWire_eq_iff_user :
    let user (secret : String) : Value := .object [("_id", .text "u1"),
      ("_hashed_password", .text secret),
      ("_included_friend", .object [("_id", .text "u2"), ("_session_token", .text secret)])]
    maskedDocument (user "a") = maskedDocument (user "b") ∧
      keptIn (user "a") = keptIn (user "b") ∧
        Agree (fun w w' => w = w') (toWire (user "a") .null) (toWire (user "b") .null) := by
  intro user
  have hmasked : maskedDocument (user "a") = maskedDocument (user "b") := rfl
  have hkept : keptIn (user "a") = keptIn (user "b") := rfl
  exact ⟨hmasked, hkept, (toWire_eq_iff hmasked).imp fun w w' hw => hw.mpr hkept⟩

/-- A list of included documents is kept whole, so the internal columns in it are shown. -/
theorem included_list_shows_internal :
    let albums (secret : String) : Value :=
      .list [.object [("_id", .text "al1"), ("_hashed_password", .text secret)]]
    let song (secret : String) : Value :=
      .object [("_id", .text "s1"), ("_included_albums", albums secret)]
    maskedDocument (song "a") = maskedDocument (song "b") ∧
      toWire (song "a") .null ≠ toWire (song "b") .null := by
  intro albums song
  have hshown : ∀ secret, toWire (song secret) .null =
      .ok (.object [("objectId", .text "s1"), ("albums", albums secret)]) := fun _ => rfl
  refine ⟨rfl, ?_⟩
  rw [hshown, hshown]
  simp [albums, Value.object]

end DocQuery.Document
