-- SUMMARY: What a grouped result answers for a key: the first group whose key stands for the same.
import DocQuery.Group.Result
import DocQuery.Proofs.Group.Nested

/-!
# Lookup by value

A result keeps each group under the lookup form of its key, and a key that is asked for is
brought into that form too. So it is found where the first group stands whose key is equal to
it, with tuples read as lists; and every kind of question about a key is answered by that group.
-/

namespace DocQuery.GroupResult

/-! ## Groups under their lookup forms -/

variable {groups : List Group} {keyed : List (Value × Group)}

/-- Each group stands under the lookup form of its key. -/
def AreKeyed (groups : List Group) (keyed : List (Value × Group)) : Prop :=
  List.Forall₂ (fun g x => g.key.hashedKey = .ok x.1 ∧ x.2 = g) groups keyed

theorem AreKeyed.ofGroups_eq (h : AreKeyed groups keyed)
    (labelling : Option (Value → Except Error String)) :
    ofGroups groups labelling = .ok ⟨keyed, labelling⟩ := by
  have hkeyed : (groups.mapM fun g => do
      let k ← g.key.hashedKey
      (.ok (k, g) : Except Error (Value × Group))) = .ok keyed := by
    refine mapM_eq_ok_iff.mpr (h.imp fun g x hx => ?_)
    rw [hx.1, ← hx.2]
    rfl
  rw [ofGroups, hkeyed]
  rfl

theorem AreKeyed.toGroups_eq (h : AreKeyed groups keyed) : keyed.map (·.2) = groups := by
  induction h with
  | nil => rfl
  | cons hhead _ ih => rw [List.map_cons, ih, hhead.2]

theorem exists_areKeyed (h : ∀ g ∈ groups, ∃ k, g.key.hashedKey = .ok k) :
    ∃ keyed, AreKeyed groups keyed :=
  exists_forall₂ fun g hg => by
    obtain ⟨k, hk⟩ := h g hg
    exact ⟨(k, g), hk, rfl⟩

/-- A result is made of groups whose keys can be looked up. -/
theorem exists_ofGroups (h : ∀ g ∈ groups, ∃ k, g.key.hashedKey = .ok k)
    (labelling : Option (Value → Except Error String)) :
    ∃ r, ofGroups groups labelling = .ok r ∧ r.toGroups = groups ∧ r.labelling = labelling := by
  obtain ⟨keyed, hkeyed⟩ := exists_areKeyed h
  exact ⟨⟨keyed, labelling⟩, hkeyed.ofGroups_eq labelling, hkeyed.toGroups_eq, rfl⟩

/-! ## Answers -/

/-- The first group whose key is equal to another key, with tuples read as lists. -/
def firstLike (groups : List Group) (key : Value) : Option Group :=
  groups.find? fun g => g.key.asLists == key.asLists

/-- Every question about a key is answered by the first group whose key is equal to it. -/
structure Answers (r : GroupResult) (groups : List Group) (key : Value) : Prop where
  find : r.find? key = .ok (firstLike groups key)
  contains : r.contains key = .ok (groups.any fun g => g.key.asLists == key.asLists)
  found : ∀ g, firstLike groups key = some g → r.count key = .ok g.count ∧
    (∀ default, r.countD key default = .ok g.count) ∧
    r.members key = .ok (if g.members.isGiven then g.members else .tuple [])
  missing : firstLike groups key = none → r.count key = .error .missingKey ∧
    (∀ default, r.countD key default = .ok default) ∧ r.members key = .error .missingKey

/-- All answers follow from the group that is found. -/
theorem answers_of_find {r : GroupResult} {key : Value}
    (h : r.find? key = .ok (firstLike groups key)) : r.Answers groups key where
  find := h
  contains := by
    have hany : (firstLike groups key).isSome =
        groups.any fun g => g.key.asLists == key.asLists := by
      rw [Bool.eq_iff_iff, firstLike, List.find?_isSome, List.any_eq_true]
    rw [GroupResult.contains, h, ← hany]
    rfl
  found g hg := by
    rw [hg] at h
    refine ⟨?_, fun default => ?_, ?_⟩
    · rw [count, get, h]
      rfl
    · rw [countD, h]
      rfl
    · rw [members, get, h]
      rfl
  missing hnone := by
    rw [hnone] at h
    refine ⟨?_, fun default => ?_, ?_⟩
    · rw [count, get, h]
      rfl
    · rw [countD, h]
      rfl
    · rw [members, get, h]
      rfl

theorem find?_eq {labelling : Option (Value → Except Error String)} (h : AreKeyed groups keyed)
    (hgroups : ∀ g ∈ groups, g.key.IsNested) {key : Value} (hkey : key.IsNested) :
    find? ⟨keyed, labelling⟩ key = .ok (firstLike groups key) := by
  obtain ⟨k, hhashed, hlookup⟩ := hkey.exists_hashedKey
  have hfound : (keyed.find? fun x => x.1 == k).map (·.2) = firstLike groups key := by
    rw [firstLike]
    induction h with
    | nil => rfl
    | @cons g x _ _ hhead _ ih =>
      obtain ⟨hg, hgroups⟩ := List.forall_mem_cons.mp hgroups
      obtain ⟨l, hhashed', hlookup'⟩ := hg.exists_hashedKey
      obtain rfl := Except.ok.inj (hhashed'.symm.trans hhead.1)
      have hsame := hg.lookupKey_beq_iff hkey hlookup' hlookup
      rw [List.find?_cons, List.find?_cons, Bool.eq_iff_iff.mpr hsame]
      split
      · rw [Option.map_some, hhead.2]
      · exact ih hgroups
  rw [GroupResult.find?, hhashed, ← hfound]
  rfl

/-- Nested keys have lookup forms, which are equal exactly when the keys are, with tuples read
    as lists. Groups with such keys make a result, and for every such key it answers with the
    first group whose key is equal to it in this sense. -/
theorem answers_by_value :
    (∀ {a b : Value}, a.IsNested → b.IsNested → ∃ k l, a.lookupKey = .ok k ∧ b.lookupKey = .ok l ∧
      ((k == l) = true ↔ (a.asLists == b.asLists) = true)) ∧
    ∀ {groups : List Group} (labelling : Option (Value → Except Error String)),
      (∀ g ∈ groups, g.key.IsNested) → ∃ r, ofGroups groups labelling = .ok r ∧
        r.toGroups = groups ∧ ∀ {key : Value}, key.IsNested → r.Answers groups key := by
  refine ⟨fun ha hb => ?_, fun labelling h => ?_⟩
  · obtain ⟨k, hk, -⟩ := ha.exists_lookupKey
    obtain ⟨l, hl, -⟩ := hb.exists_lookupKey
    exact ⟨k, l, hk, hl, ha.lookupKey_beq_iff hb hk hl⟩
  · obtain ⟨keyed, hkeyed⟩ := exists_areKeyed fun g hg =>
      (h g hg).exists_hashedKey.imp fun _ hk => hk.1
    exact ⟨⟨keyed, labelling⟩, hkeyed.ofGroups_eq labelling, hkeyed.toGroups_eq,
      fun hkey => answers_of_find (find?_eq hkeyed h hkey)⟩

/-- Genres with years, once as a list and once as a tuple in a mapping written the other way
    round: one key, for which the first group answers. -/
theorem answers_by_value_genres :
    let listed : Value :=
      .map [(.text "genre", .text "rock"), (.text "years", .list [.int 1990, .null])]
    let tupled : Value :=
      .map [(.text "years", .tuple [.int 1990, .null]), (.text "genre", .text "rock")]
    let groups : List Group := [{ key := listed, count := .int 2 }, { key := tupled, count := .int 5 }]
    (∃ k l, listed.lookupKey = .ok k ∧ tupled.lookupKey = .ok l ∧ (k == l) = true) ∧
      ∃ r, ofGroups groups none = .ok r ∧ r.count tupled = .ok (.int 2) ∧
        r.count (.bool true) = .error .missingKey := by
  intro listed tupled groups
  have hleaf : ∀ {v : Value}, v.IsScalar → v.IsNested := fun h => .leaf (.scalar h)
  have hyears : ∀ x ∈ [Value.int 1990, .null], x.IsNested := by
    simp [hleaf (.int 1990), hleaf .null]
  have hlist : (Value.list [.int 1990, .null]).IsNested := .sequence rfl hyears
  have htuple : (Value.tuple [.int 1990, .null]).IsNested := .sequence rfl hyears
  have hlisted : listed.IsNested :=
    .map (by simp [Value.IsText.text]) (by simp; rfl) (by simp [hleaf (.text "rock"), hlist])
  have htupled : tupled.IsNested :=
    .map (by simp [Value.IsText.text]) (by simp; rfl) (by simp [hleaf (.text "rock"), htuple])
  obtain ⟨hforms, hresults⟩ := answers_by_value
  obtain ⟨k, l, hk, hl, hsame⟩ := hforms hlisted htupled
  refine ⟨⟨k, l, hk, hl, hsame.mpr rfl⟩, ?_⟩
  have hgroups : ∀ g ∈ groups, g.key.IsNested := by simp [groups, hlisted, htupled]
  obtain ⟨r, hr, -, hanswers⟩ := hresults none hgroups
  refine ⟨r, hr, ((hanswers htupled).found _ rfl).1, ?_⟩
  exact ((hanswers (hleaf (.bool true))).missing rfl).1

end DocQuery.GroupResult
