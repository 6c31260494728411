-- SUMMARY: Laws of entries in order: lookup after assignment, merging, and renaming of keys.
import DocQuery.Assoc
import Mathlib.Data.List.Count
import Mathlib.Data.List.Induction
import Mathlib.Data.List.Nodup

/-!
# Laws of entries in order

What a key is found to hold after assignments and merges, that keys stay different, and
that entries may be renamed before or after repeated keys are joined.
-/

namespace DocQuery.Assoc

variable {κ : Type u} {α : Type v}

/-- The keys, in order. -/
def keys (es : List (κ × α)) : List κ :=
  es.map Prod.fst

@[simp] theorem keys_nil : keys ([] : List (κ × α)) = [] := rfl

@[simp] theorem keys_cons (e : κ × α) (es : List (κ × α)) : keys (e :: es) = e.1 :: keys es := rfl

@[simp] theorem keys_append (es fs : List (κ × α)) : keys (es ++ fs) = keys es ++ keys fs := by
  simp [keys]

theorem length_keys (es : List (κ × α)) : (keys es).length = es.length :=
  List.length_map _

theorem keys_of_forall₂ {β : Type w} {R : κ × α → κ × β → Prop} {es : List (κ × α)}
    {fs : List (κ × β)} (h : List.Forall₂ R es fs) (hkey : ∀ e f, R e f → e.1 = f.1) :
    keys es = keys fs := by
  induction h with
  | nil => rfl
  | cons hhead _ ih => rw [keys_cons, keys_cons, ih, hkey _ _ hhead]

variable [BEq κ]

@[simp] theorem merge_nil (base : List (κ × α)) : merge base [] = base := rfl

@[simp] theorem merge_cons (base : List (κ × α)) (e : κ × α) (es : List (κ × α)) :
    merge base (e :: es) = merge (assign e.1 e.2 base) es := rfl

theorem merge_append (base es fs : List (κ × α)) :
    merge base (es ++ fs) = merge (merge base es) fs := by
  simp [merge, List.foldl_append]

theorem ofPairs_append_singleton (es : List (κ × α)) (e : κ × α) :
    ofPairs (es ++ [e]) = assign e.1 e.2 (ofPairs es) := by
  rw [ofPairs, merge_append]
  rfl

theorem forall_mem_assign {P : α → Prop} {es : List (κ × α)} (h : ∀ e ∈ es, P e.2) (k : κ) {v : α}
    (hv : P v) : ∀ e ∈ assign k v es, P e.2 := by
  induction es with
  | nil => simpa [assign] using hv
  | cons e es ih =>
    obtain ⟨hhead, hrest⟩ := List.forall_mem_cons.mp h
    rw [assign]
    split
    · exact List.forall_mem_cons.mpr ⟨hv, hrest⟩
    · exact List.forall_mem_cons.mpr ⟨hhead, ih hrest⟩

theorem forall_mem_merge {P : α → Prop} {base es : List (κ × α)} (hbase : ∀ e ∈ base, P e.2)
    (h : ∀ e ∈ es, P e.2) : ∀ e ∈ merge base es, P e.2 := by
  induction es generalizing base with
  | nil => exact hbase
  | cons e es ih =>
    obtain ⟨hhead, hrest⟩ := List.forall_mem_cons.mp h
    exact ih (forall_mem_assign hbase e.1 hhead) hrest

/-- What holds of all values holds of those that stay. -/
theorem forall_mem_ofPairs {P : α → Prop} {es : List (κ × α)} (h : ∀ e ∈ es, P e.2) :
    ∀ e ∈ ofPairs es, P e.2 :=
  forall_mem_merge (List.forall_mem_nil _) h

/-- What holds of all values holds of the one that is found. -/
theorem of_find?_eq_some {P : α → Prop} {es : List (κ × α)} (h : ∀ e ∈ es, P e.2) {k : κ} {v : α}
    (hv : find? k es = some v) : P v := by
  induction es with
  | nil => cases hv
  | cons e es ih =>
    obtain ⟨hhead, hrest⟩ := List.forall_mem_cons.mp h
    rw [find?] at hv
    split at hv
    · cases hv
      exact hhead
    · exact ih hrest hv

section Mapping

variable {κ' : Type u'} {β : Type w} [BEq κ'] {rename : κ → κ'}

theorem assign_map (h : ∀ a b, (rename a == rename b) = (a == b)) (f : α → β) (k : κ) (v : α)
    (es : List (κ × α)) : assign (rename k) (f v) (es.map fun e => (rename e.1, f e.2)) =
      (assign k v es).map fun e => (rename e.1, f e.2) := by
  induction es with
  | nil => rfl
  | cons e es ih =>
    simp only [List.map_cons, assign, h, ih]
    split <;> rfl

/-- Where new keys are equal just as the old ones were, repeated keys may be joined before or
    after the entries are mapped. -/
theorem ofPairs_map (h : ∀ a b, (rename a == rename b) = (a == b)) (f : α → β)
    (es : List (κ × α)) : ofPairs (es.map fun e => (rename e.1, f e.2)) =
      (ofPairs es).map fun e => (rename e.1, f e.2) := by
  induction es using List.reverseRecOn with
  | nil => rfl
  | append_singleton es e ih =>
    rw [List.map_append, List.map_singleton, ofPairs_append_singleton, ofPairs_append_singleton,
      ih]
    exact assign_map h f e.1 e.2 (ofPairs es)

theorem find?_map (h : ∀ a b, (rename a == rename b) = (a == b)) (f : α → β) (k : κ)
    (es : List (κ × α)) :
    find? (rename k) (es.map fun e => (rename e.1, f e.2)) = (find? k es).map f := by
  induction es with
  | nil => rfl
  | cons e es ih =>
    simp only [List.map_cons, find?, h, ih]
    split <;> rfl

end Mapping

/-- A key is found in front, or else behind. -/
theorem find?_append (k : κ) (es fs : List (κ × α)) :
    find? k (es ++ fs) = (find? k es).or (find? k fs) := by
  induction es with
  | nil => rfl
  | cons e es ih =>
    simp only [List.cons_append, find?, ih]
    split <;> rfl

variable [LawfulBEq κ]

/-! ## Assignment -/

theorem assign_cons_self (k : κ) (v w : α) (es : List (κ × α)) :
    assign k v ((k, w) :: es) = (k, v) :: es := by
  simp [assign]

theorem assign_cons_ne {k k' : κ} (h : k' ≠ k) (v w : α) (es : List (κ × α)) :
    assign k v ((k', w) :: es) = (k', w) :: assign k v es := by
  simp [assign, h]

/-- A new key goes to the end. -/
theorem assign_of_not_mem {k : κ} {es : List (κ × α)} (h : k ∉ keys es) (v : α) :
    assign k v es = es ++ [(k, v)] := by
  induction es with
  | nil => rfl
  | cons e es ih =>
    obtain ⟨k', w⟩ := e
    simp only [keys_cons, List.mem_cons, not_or] at h
    rw [assign_cons_ne (Ne.symm h.1), ih h.2, List.cons_append]

/-- A key that is there keeps its place. -/
theorem keys_assign_of_mem {k : κ} {es : List (κ × α)} (h : k ∈ keys es) (v : α) :
    keys (assign k v es) = keys es := by
  induction es with
  | nil => cases h
  | cons e es ih =>
    obtain ⟨k', w⟩ := e
    by_cases hk : k' = k
    · rw [hk, assign_cons_self]
      rfl
    · have htail : k ∈ keys es := by
        simpa [Ne.symm hk] using h
      rw [assign_cons_ne hk, keys_cons, keys_cons, ih htail]

theorem mem_keys_assign {k k' : κ} {v : α} {es : List (κ × α)} :
    k ∈ keys (assign k' v es) ↔ k = k' ∨ k ∈ keys es := by
  by_cases h : k' ∈ keys es
  · rw [keys_assign_of_mem h]
    refine ⟨.inr, ?_⟩
    rintro (rfl | hk)
    · exact h
    · exact hk
  · rw [assign_of_not_mem h]
    simp [or_comm]

theorem nodup_keys_assign {es : List (κ × α)} (h : (keys es).Nodup) (k : κ) (v : α) :
    (keys (assign k v es)).Nodup := by
  by_cases hk : k ∈ keys es
  · rwa [keys_assign_of_mem hk]
  · rw [assign_of_not_mem hk, keys_append]
    exact List.nodup_append.mpr ⟨h, by simp, by rintro a ha b hb rfl; simp_all⟩

theorem find?_assign (k k' : κ) (v : α) (es : List (κ × α)) :
    find? k (assign k' v es) = if k' == k then some v else find? k es := by
  induction es with
  | nil => simp [assign, find?]
  | cons e es ih =>
    obtain ⟨k₁, w⟩ := e
    by_cases h₁ : k₁ = k'
    · subst h₁
      rw [assign_cons_self]
      by_cases h : k₁ = k <;> simp [find?, h]
    · rw [assign_cons_ne h₁]
      by_cases h : k₁ = k
      · subst h
        simp [find?, Ne.symm h₁]
      · simp only [find?, beq_iff_eq, h, if_false, ih]

/-- Two assignments to one key are the later one. -/
theorem assign_assign (k : κ) (v w : α) (es : List (κ × α)) :
    assign k v (assign k w es) = assign k v es := by
  induction es with
  | nil => simp [assign]
  | cons e es ih =>
    obtain ⟨k', u⟩ := e
    by_cases h : k' = k
    · subst h
      simp only [assign_cons_self]
    · simp only [assign_cons_ne h, ih]

/-- An assignment to a key that is there may come after one to another key. -/
theorem assign_comm_of_mem {k k' : κ} (hne : k' ≠ k) {es : List (κ × α)} (h : k ∈ keys es)
    (v w : α) : assign k v (assign k' w es) = assign k' w (assign k v es) := by
  induction es with
  | nil => cases h
  | cons e es ih =>
    obtain ⟨k₁, u⟩ := e
    by_cases h₁ : k₁ = k
    · subst h₁
      rw [assign_cons_ne (Ne.symm hne), assign_cons_self, assign_cons_self,
        assign_cons_ne (Ne.symm hne)]
    · have htail : k ∈ keys es := by
        simpa [Ne.symm h₁] using h
      by_cases h₂ : k₁ = k'
      · subst h₂
        rw [assign_cons_self, assign_cons_ne h₁, assign_cons_ne h₁, assign_cons_self]
      · rw [assign_cons_ne h₂, assign_cons_ne h₁, assign_cons_ne h₁, assign_cons_ne h₂, ih htail]

/-! ## Lookup -/

theorem find?_eq_none_iff {k : κ} {es : List (κ × α)} : find? k es = none ↔ k ∉ keys es := by
  induction es with
  | nil => simp [find?]
  | cons e es ih =>
    obtain ⟨k', w⟩ := e
    by_cases h : k' = k
    · simp [find?, h]
    · simp [find?, h, Ne.symm h, ih]

theorem find?_isSome_iff {k : κ} {es : List (κ × α)} : (find? k es).isSome ↔ k ∈ keys es := by
  rw [← not_iff_not, Bool.not_eq_true, Option.isSome_eq_false_iff, Option.isNone_iff_eq_none,
    find?_eq_none_iff]

theorem mem_of_find?_eq_some {k : κ} {v : α} {es : List (κ × α)} (h : find? k es = some v) :
    (k, v) ∈ es := by
  induction es with
  | nil => cases h
  | cons e es ih =>
    obtain ⟨k', w⟩ := e
    by_cases hk : k' = k
    · simp only [find?, hk, beq_self_eq_true, if_true, Option.some.injEq] at h
      simp [hk, h]
    · simp only [find?, beq_iff_eq, hk, if_false] at h
      exact List.mem_cons_of_mem _ (ih h)

/-- Where no key occurs twice, a key is found with the value of its entry. -/
theorem find?_eq_some_iff {k : κ} {v : α} {es : List (κ × α)} (hnodup : (keys es).Nodup) :
    find? k es = some v ↔ (k, v) ∈ es := by
  refine ⟨mem_of_find?_eq_some, fun hmem => ?_⟩
  induction es with
  | nil => cases hmem
  | cons e es ih =>
    obtain ⟨k', w⟩ := e
    simp only [keys_cons, List.nodup_cons] at hnodup
    rcases List.mem_cons.mp hmem with heq | htail
    · cases heq
      simp [find?]
    · have hne : k' ≠ k := by
        rintro rfl
        exact hnodup.1 (List.mem_map_of_mem htail)
      simp only [find?, beq_iff_eq, hne, if_false]
      exact ih hnodup.2 htail

/-- Where no key occurs twice, the order of the entries does not matter. -/
theorem find?_of_perm {es fs : List (κ × α)} (h : es.Perm fs) (hnodup : (keys fs).Nodup) (k : κ) :
    find? k es = find? k fs := by
  have hnodup' : (keys es).Nodup := (h.map Prod.fst).nodup_iff.mpr hnodup
  ext v
  rw [find?_eq_some_iff hnodup', find?_eq_some_iff hnodup, h.mem_iff]

/-- Entries that are found alike are the same, where no key occurs twice. -/
theorem perm_of_find?_eq {es fs : List (κ × α)} (hes : (keys es).Nodup) (hfs : (keys fs).Nodup)
    (h : ∀ k, find? k es = find? k fs) : es.Perm fs := by
  refine (List.perm_ext_iff_of_nodup hes.of_map hfs.of_map).mpr fun e => ?_
  rw [← find?_eq_some_iff hes, ← find?_eq_some_iff hfs, h]

/-! ## Merging -/

theorem mem_keys_merge {k : κ} {base es : List (κ × α)} :
    k ∈ keys (merge base es) ↔ k ∈ keys base ∨ k ∈ keys es := by
  induction es generalizing base with
  | nil => simp
  | cons e es ih =>
    rw [merge_cons, ih, mem_keys_assign, keys_cons, List.mem_cons]
    tauto

theorem mem_keys_ofPairs {k : κ} {es : List (κ × α)} : k ∈ keys (ofPairs es) ↔ k ∈ keys es := by
  simp [ofPairs, mem_keys_merge]

theorem nodup_keys_merge {base : List (κ × α)} (h : (keys base).Nodup) (es : List (κ × α)) :
    (keys (merge base es)).Nodup := by
  induction es generalizing base with
  | nil => exact h
  | cons e es ih => exact ih (nodup_keys_assign h e.1 e.2)

theorem nodup_keys_ofPairs (es : List (κ × α)) : (keys (ofPairs es)).Nodup :=
  nodup_keys_merge (by simp : (keys ([] : List (κ × α))).Nodup) es

theorem mem_of_mem_assign {e : κ × α} {k : κ} {v : α} {es : List (κ × α)}
    (h : e ∈ assign k v es) : e = (k, v) ∨ e ∈ es := by
  induction es with
  | nil => exact .inl (List.mem_singleton.mp h)
  | cons f es ih =>
    obtain ⟨k', w⟩ := f
    by_cases hk : k' = k
    · subst hk
      rw [assign_cons_self] at h
      exact (List.mem_cons.mp h).imp_right (List.mem_cons_of_mem _)
    · rw [assign_cons_ne hk] at h
      rcases List.mem_cons.mp h with rfl | h
      · exact .inr List.mem_cons_self
      · exact (ih h).imp_right (List.mem_cons_of_mem _)

/-- The entries that stay are among those that were written. -/
theorem mem_of_mem_ofPairs {e : κ × α} {es : List (κ × α)} (h : e ∈ ofPairs es) : e ∈ es := by
  induction es using List.reverseRecOn with
  | nil => exact h
  | append_singleton es f ih =>
    rw [ofPairs_append_singleton] at h
    rw [List.mem_append, List.mem_singleton]
    exact (mem_of_mem_assign h).symm.imp_left ih

/-- New and different keys are appended. -/
theorem merge_of_disjoint {base es : List (κ × α)} (hnodup : (keys es).Nodup)
    (hnew : ∀ k ∈ keys es, k ∉ keys base) : merge base es = base ++ es := by
  induction es generalizing base with
  | nil => simp
  | cons e es ih =>
    simp only [keys_cons, List.nodup_cons] at hnodup
    have hhead : e.1 ∉ keys base := hnew e.1 (by simp)
    rw [merge_cons, assign_of_not_mem hhead, ih hnodup.2]
    · simp
    · intro k hk hmem
      have hbase : k ∉ keys base := hnew k (by simp [hk])
      simp only [keys_append, keys_cons, keys_nil, List.mem_append, List.mem_singleton] at hmem
      rcases hmem with hmem | rfl
      · exact hbase hmem
      · exact hnodup.1 hk

/-- Entries whose keys differ stay as they are. -/
theorem ofPairs_of_nodup {es : List (κ × α)} (h : (keys es).Nodup) : ofPairs es = es := by
  rw [ofPairs, merge_of_disjoint h (by simp), List.nil_append]

/-- Each key stays once, in its first place. -/
theorem keys_ofPairs (es : List (κ × α)) : keys (ofPairs es) = (keys es).eraseDups := by
  induction es using List.reverseRecOn with
  | nil => rfl
  | append_singleton es e ih =>
    rw [ofPairs_append_singleton, keys_append, List.eraseDups_append]
    by_cases he : e.1 ∈ keys es
    · rw [keys_assign_of_mem (mem_keys_ofPairs.mpr he), ih]
      simp [List.removeAll, he]
    · rw [assign_of_not_mem (mt mem_keys_ofPairs.mp he), keys_append, ih]
      simp [List.removeAll, he, List.eraseDups_cons]

/-- Of the entries with one key the last one's value stays. -/
theorem find?_ofPairs (k : κ) (es : List (κ × α)) : find? k (ofPairs es) = find? k es.reverse := by
  induction es using List.reverseRecOn with
  | nil => rfl
  | append_singleton es e ih =>
    rw [ofPairs_append_singleton, find?_assign, ih, List.reverse_append]
    rfl

/-- No entry is lost exactly when the keys differ. -/
theorem length_ofPairs_eq_iff {es : List (κ × α)} :
    (ofPairs es).length = es.length ↔ (keys es).Nodup := by
  refine ⟨fun h => ?_, fun h => by rw [ofPairs_of_nodup h]⟩
  have hsub : (keys (ofPairs es)).Subperm (keys es) :=
    List.subperm_of_subset (nodup_keys_ofPairs es) fun _ hk => mem_keys_ofPairs.mp hk
  have hperm := hsub.perm_of_length_le (by simp [keys, h])
  exact hperm.nodup_iff.mp (nodup_keys_ofPairs es)

/-- An update is found before the base. -/
theorem find?_merge {es : List (κ × α)} (h : (keys es).Nodup) (k : κ) (base : List (κ × α)) :
    find? k (merge base es) = (find? k es).or (find? k base) := by
  induction es generalizing base with
  | nil => rfl
  | cons e es ih =>
    obtain ⟨k', v⟩ := e
    simp only [keys_cons, List.nodup_cons] at h
    rw [merge_cons, ih h.2, find?_assign]
    by_cases hk : k' = k
    · subst hk
      simp [find?, find?_eq_none_iff.mpr h.1]
    · simp [find?, hk]

/-- Values that are related under their keys stay so when related values are assigned. -/
theorem assign_forall₂_keyed {β : Type w} (R : κ → α → β → Prop) {es : List (κ × α)}
    {fs : List (κ × β)} (h : List.Forall₂ (fun e f => e.1 = f.1 ∧ R e.1 e.2 f.2) es fs) {k : κ}
    {v : α} {w : β} (hvw : R k v w) :
    List.Forall₂ (fun e f => e.1 = f.1 ∧ R e.1 e.2 f.2) (assign k v es) (assign k w fs) := by
  induction h with
  | nil => exact .cons ⟨rfl, hvw⟩ .nil
  | @cons e f es fs hhead htail ih =>
    obtain ⟨k₁, x⟩ := e
    obtain ⟨k₂, y⟩ := f
    obtain ⟨rfl, hxy⟩ : k₁ = k₂ ∧ R k₁ x y := hhead
    by_cases hk : k₁ = k
    · subst hk
      rw [assign_cons_self, assign_cons_self]
      exact .cons ⟨rfl, hvw⟩ htail
    · rw [assign_cons_ne hk, assign_cons_ne hk]
      exact .cons ⟨rfl, hxy⟩ ih

/-- They stay so when repeated keys are joined. -/
theorem ofPairs_forall₂_keyed {β : Type w} (R : κ → α → β → Prop) {es : List (κ × α)}
    {fs : List (κ × β)} (h : List.Forall₂ (fun e f => e.1 = f.1 ∧ R e.1 e.2 f.2) es fs) :
    List.Forall₂ (fun e f => e.1 = f.1 ∧ R e.1 e.2 f.2) (ofPairs es) (ofPairs fs) := by
  have hmerge : ∀ {base : List (κ × α)} {base' : List (κ × β)},
      List.Forall₂ (fun e f => e.1 = f.1 ∧ R e.1 e.2 f.2) base base' →
      List.Forall₂ (fun e f => e.1 = f.1 ∧ R e.1 e.2 f.2) (merge base es) (merge base' fs) := by
    induction h with
    | nil => exact fun hbase => hbase
    | @cons e f es fs hhead htail ih =>
      intro base base' hbase
      rw [merge_cons, merge_cons, ← hhead.1]
      exact ih (assign_forall₂_keyed R hbase hhead.2)
  exact hmerge .nil

/-- Related values stay related when related ones are assigned. -/
theorem assign_forall₂ {β : Type w} {R : α → β → Prop} {es : List (κ × α)} {fs : List (κ × β)}
    (h : List.Forall₂ (fun e f => e.1 = f.1 ∧ R e.2 f.2) es fs) (k : κ) {v : α} {w : β}
    (hvw : R v w) : List.Forall₂ (fun e f => e.1 = f.1 ∧ R e.2 f.2) (assign k v es) (assign k w fs) :=
  assign_forall₂_keyed (fun _ => R) h hvw

/-- Related values stay related when repeated keys are joined. -/
theorem ofPairs_forall₂ {β : Type w} {R : α → β → Prop} {es : List (κ × α)} {fs : List (κ × β)}
    (h : List.Forall₂ (fun e f => e.1 = f.1 ∧ R e.2 f.2) es fs) :
    List.Forall₂ (fun e f => e.1 = f.1 ∧ R e.2 f.2) (ofPairs es) (ofPairs fs) :=
  ofPairs_forall₂_keyed (fun _ => R) h

/-- A key is found in both or in neither where the entries under it correspond, whatever the other
    entries are. -/
theorem find?_forall₂_at {β : Type w} (R : α → β → Prop) {k : κ} {es : List (κ × α)}
    {fs : List (κ × β)}
    (h : List.Forall₂ (fun e f => (e.1 = k ↔ f.1 = k) ∧ (e.1 = k → R e.2 f.2)) es fs) :
    Option.Rel R (find? k es) (find? k fs) := by
  induction h with
  | nil => exact .none
  | @cons e f es fs hhead _ ih =>
    obtain ⟨k₁, x⟩ := e
    obtain ⟨k₂, y⟩ := f
    obtain ⟨hiff, hxy⟩ : (k₁ = k ↔ k₂ = k) ∧ (k₁ = k → R x y) := hhead
    by_cases hk : k₁ = k
    · simp only [find?, beq_iff_eq, hk, hiff.mp hk, if_true]
      exact .some (hxy hk)
    · simp only [find?, beq_iff_eq, hk, mt hiff.mpr hk, if_false]
      exact ih

theorem find?_ofPairs_forall₂_at {β : Type w} (R : α → β → Prop) {k : κ} {es : List (κ × α)}
    {fs : List (κ × β)}
    (h : List.Forall₂ (fun e f => (e.1 = k ↔ f.1 = k) ∧ (e.1 = k → R e.2 f.2)) es fs) :
    Option.Rel R (find? k (ofPairs es)) (find? k (ofPairs fs)) := by
  rw [find?_ofPairs, find?_ofPairs]
  exact find?_forall₂_at R (List.forall₂_reverse_iff.mpr h)

/-- A key is found in both or in neither, with values that are related under it. -/
theorem find?_forall₂ {β : Type w} (R : κ → α → β → Prop) {es : List (κ × α)}
    {fs : List (κ × β)} (h : List.Forall₂ (fun e f => e.1 = f.1 ∧ R e.1 e.2 f.2) es fs) (k : κ) :
    Option.Rel (R k) (find? k es) (find? k fs) :=
  find?_forall₂_at (R k) (h.imp fun _ _ hef => ⟨by rw [hef.1], fun hk => hk ▸ hef.2⟩)

/-! ## Renaming -/

section Renaming

variable {κ' : Type u'} {β : Type w} [BEq κ'] [LawfulBEq κ'] (rename : κ → κ') (f : κ → α → β)

/-- Entries under new keys. -/
def renamed (es : List (κ × α)) : List (κ' × β) :=
  es.map fun (k, v) => (rename k, f k v)

omit [BEq κ] [LawfulBEq κ] [BEq κ'] [LawfulBEq κ'] in
@[simp] theorem renamed_cons (e : κ × α) (es : List (κ × α)) :
    renamed rename f (e :: es) = (rename e.1, f e.1 e.2) :: renamed rename f es := rfl

omit [BEq κ] [LawfulBEq κ] [BEq κ'] [LawfulBEq κ'] in
@[simp] theorem keys_renamed (es : List (κ × α)) :
    keys (renamed rename f es) = (keys es).map rename := by
  simp [keys, renamed, Function.comp_def]

/-- An assignment to a key that is there may come after updates of other keys. -/
theorem assign_merge_comm {k : κ} {base es : List (κ × α)} (hmem : k ∈ keys base)
    (hnot : k ∉ keys es) (v : α) : assign k v (merge base es) = merge (assign k v base) es := by
  induction es generalizing base with
  | nil => rfl
  | cons e es ih =>
    simp only [keys_cons, List.mem_cons, not_or] at hnot
    rw [merge_cons, merge_cons, ← assign_comm_of_mem (Ne.symm hnot.1) hmem,
      ih (mem_keys_assign.mpr (.inr hmem)) hnot.2]

/-- Where only `k` itself gets the new key of `k`, an assignment may come before the renaming
    or after it. -/
theorem merge_renamed_assign {k : κ} {es : List (κ × α)} (hmem : k ∈ keys es)
    (hnodup : (keys es).Nodup) (hinj : ∀ k' ∈ keys es, rename k' = rename k → k' = k) (v : α)
    (base : List (κ' × β)) :
    merge base (renamed rename f (assign k v es)) =
      assign (rename k) (f k v) (merge base (renamed rename f es)) := by
  induction es generalizing base with
  | nil => cases hmem
  | cons e es ih =>
    obtain ⟨k', w⟩ := e
    simp only [keys_cons, List.nodup_cons] at hnodup
    by_cases hk : k' = k
    · subst hk
      have hnot : rename k' ∉ keys (renamed rename f es) := by
        rw [keys_renamed, List.mem_map]
        rintro ⟨k₁, hk₁, hrename⟩
        exact hnodup.1 (hinj k₁ (by simp [hk₁]) hrename ▸ hk₁)
      rw [assign_cons_self, renamed_cons, renamed_cons, merge_cons, merge_cons,
        assign_merge_comm (mem_keys_assign.mpr (.inl rfl)) hnot, assign_assign]
    · have htail : k ∈ keys es := by
        simpa [Ne.symm hk] using hmem
      rw [assign_cons_ne hk, renamed_cons, renamed_cons, merge_cons, merge_cons,
        ih htail hnodup.2 fun k₁ hk₁ => hinj k₁ (by simp [hk₁])]

/-- Repeated keys may be joined before the renaming as well: if two different keys get one
    new key, neither of them is repeated. -/
theorem ofPairs_renamed_ofPairs {es : List (κ × α)}
    (h : ∀ k ∈ keys es, ∀ k' ∈ keys es, rename k = rename k' → k = k' ∨ (keys es).count k ≤ 1) :
    ofPairs (renamed rename f (ofPairs es)) = ofPairs (renamed rename f es) := by
  induction es using List.reverseRecOn with
  | nil => rfl
  | append_singleton es e ih =>
    obtain ⟨k, v⟩ := e
    have hprefix : ofPairs (renamed rename f (ofPairs es)) = ofPairs (renamed rename f es) := by
      refine ih fun k₁ hk₁ k₂ hk₂ heq => ?_
      refine (h k₁ (by simp [hk₁]) k₂ (by simp [hk₂]) heq).imp_right fun hle => ?_
      rw [keys_append, List.count_append] at hle
      omega
    have hlast : renamed rename f (es ++ [(k, v)]) =
        renamed rename f es ++ [(rename k, f k v)] := by
      simp [renamed]
    rw [hlast, ofPairs_append_singleton, ofPairs_append_singleton]
    by_cases hk : k ∈ keys (ofPairs es)
    · have hinj : ∀ k' ∈ keys (ofPairs es), rename k' = rename k → k' = k := by
        intro k' hk' heq
        have hrepeated : 1 < (keys (es ++ [(k, v)])).count k := by
          have := List.count_pos_iff.mpr (mem_keys_ofPairs.mp hk)
          simp only [keys_append, keys_cons, keys_nil, List.count_append, List.count_singleton,
            beq_self_eq_true, if_true]
          omega
        refine (h k (by simp) k' (by simp [mem_keys_ofPairs.mp hk']) heq.symm).elim Eq.symm ?_
        exact fun hle => absurd hle (by omega)
      rw [ofPairs, merge_renamed_assign rename f hk (nodup_keys_ofPairs es) hinj, ← ofPairs,
        hprefix]
    · rw [assign_of_not_mem hk]
      have hnew : renamed rename f (ofPairs es ++ [(k, v)]) =
          renamed rename f (ofPairs es) ++ [(rename k, f k v)] := by
        simp [renamed]
      rw [hnew, ofPairs_append_singleton, hprefix]

end Renaming

end DocQuery.Assoc
