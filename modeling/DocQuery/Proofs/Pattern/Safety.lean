-- SUMMARY: Which repeated groups the check of search patterns refuses.
import DocQuery.Pattern.Safety
import Mathlib.Data.List.Basic
import Mathlib.Data.List.TakeWhile

/-!
# Repeated groups

A group that holds a repetition and is itself repeated makes matching explode. The check looks
for such groups up to the first closing parenthesis, so it sees them only where no group stands
inside: a repeated group that holds another group is accepted with any repetition in it. The
texts here have no escapes and no classes, so each parenthesis opens or closes a group.
-/

namespace DocQuery.Pattern

/-! ## Groups -/

/-- The parentheses are balanced. -/
inductive IsBalanced : List Char → Prop
  | nil : IsBalanced []
  | plain {c : Char} {cs : List Char} (hopen : c ≠ '(') (hclose : c ≠ ')') (h : IsBalanced cs) :
    IsBalanced (c :: cs)
  | group {body cs : List Char} (hbody : IsBalanced body) (h : IsBalanced cs) :
    IsBalanced ('(' :: (body ++ ')' :: cs))

/-- A group of the text: what is before it, in it, and after it. -/
structure IsGroup (cs before body after : List Char) : Prop where
  text : cs = before ++ '(' :: (body ++ ')' :: after)
  balanced : IsBalanced body

/-- A group that holds a repetition, at any depth, and is directly repeated. -/
structure IsExplosiveGroup (cs before body after : List Char) : Prop
    extends IsGroup cs before body after where
  repetition : body.any isRepeat = true
  repeated : after.head?.any isRepeat = true

theorem IsGroup.cons {cs before body after : List Char} (h : IsGroup cs before body after)
    (c : Char) : IsGroup (c :: cs) (c :: before) body after :=
  ⟨by rw [h.text, List.cons_append], h.balanced⟩

/-- Where a parenthesis is closed, a group stands. -/
theorem exists_isGroup {cs : List Char} (h : IsBalanced cs) (hclose : ')' ∈ cs) :
    ∃ before body after, IsGroup cs before body after := by
  induction h with
  | nil => cases hclose
  | plain hopen hne _ ih =>
    obtain ⟨before, body, after, hgroup⟩ := ih (List.mem_of_ne_of_mem hne.symm hclose)
    exact ⟨_, body, after, hgroup.cons _⟩
  | @group body cs hbody _ _ _ => exact ⟨[], body, cs, rfl, hbody⟩

/-! ## Shapes in a text -/

theorem occurs_iff {p : List Char → Bool} {cs : List Char} :
    occurs p cs = true ↔ ∃ before rest, cs = before ++ rest ∧ p rest = true := by
  constructor
  · intro h
    induction cs with
    | nil => exact ⟨[], [], rfl, h⟩
    | cons c cs ih =>
      rw [occurs, Bool.or_eq_true] at h
      rcases h with h | h
      · exact ⟨[], c :: cs, rfl, h⟩
      · obtain ⟨before, rest, rfl, hp⟩ := ih h
        exact ⟨c :: before, rest, rfl, hp⟩
  · rintro ⟨before, rest, rfl, hp⟩
    induction before with
    | nil =>
      cases rest with
      | nil => exact hp
      | cons c rest => rw [List.nil_append, occurs, hp, Bool.true_or]
    | cons c before ih => rw [List.cons_append, occurs, ih, Bool.or_true]

theorem splitAtClose?_append {body after : List Char} (h : ')' ∉ body) :
    splitAtClose? (body ++ ')' :: after) = some (body, after) := by
  have hbody : ∀ c ∈ body, (c != ')') = true := by
    intro c hc
    rw [bne_iff_ne]
    rintro rfl
    exact h hc
  rw [splitAtClose?, List.dropWhile_append_of_pos hbody, List.takeWhile_append_of_pos hbody]
  simp

theorem eq_of_splitAtClose? {cs body after : List Char}
    (h : splitAtClose? cs = some (body, after)) : cs = body ++ ')' :: after ∧ ')' ∉ body := by
  by_cases hclose : ')' ∈ cs
  · obtain ⟨body', after', rfl, hbody⟩ := List.eq_append_cons_of_mem hclose
    rw [splitAtClose?_append hbody] at h
    cases h
    exact ⟨rfl, hbody⟩
  · have hnone : cs.dropWhile (· != ')') = [] := by
      rw [List.dropWhile_eq_nil_iff]
      intro c hc
      rw [bne_iff_ne]
      rintro rfl
      exact hclose hc
    rw [splitAtClose?, hnone] at h
    cases h

/-- The check sees a repeated group from each parenthesis that is open there. -/
theorem isRepeatedGroup_iff {cs : List Char} :
    isRepeatedGroup cs = true ↔ ∃ body after, cs = '(' :: (body ++ ')' :: after) ∧ ')' ∉ body ∧
      body.any isRepeat = true ∧ (after.dropWhile Text.isBlank).head?.any isRepeat = true := by
  constructor
  · intro h
    unfold isRepeatedGroup at h
    split at h
    · split at h
      · rename_i rest body after hsplit
        obtain ⟨rfl, hclose⟩ := eq_of_splitAtClose? hsplit
        exact ⟨body, after, rfl, hclose, Bool.and_eq_true_iff.mp h⟩
      · cases h
    · cases h
  · rintro ⟨body, after, rfl, hclose, hbody, hafter⟩
    simp only [isRepeatedGroup, splitAtClose?_append hclose, hbody, hafter, Bool.and_self]

/-! ## Refused groups -/

/-- A group that the check refuses. No group is in it, it is repeated, blanks aside, and a
    repetition stands in it, or in front of it in a group that is open there. -/
structure IsRefusedGroup (cs before body after : List Char) : Prop
    extends IsGroup cs before body after where
  innermost : ')' ∉ body
  repeated : (after.dropWhile Text.isBlank).head?.any isRepeat = true
  repetition : body.any isRepeat = true ∨ ∃ outer opened, before = outer ++ '(' :: opened ∧
    ')' ∉ opened ∧ opened.any isRepeat = true

theorem isBalanced_of_not_mem {cs : List Char} (hopen : '(' ∉ cs) (hclose : ')' ∉ cs) :
    IsBalanced cs := by
  induction cs with
  | nil => exact .nil
  | cons c cs ih =>
    rw [List.mem_cons, not_or] at hopen hclose
    exact .plain (Ne.symm hopen.1) (Ne.symm hclose.1) (ih hopen.2 hclose.2)

/-- The last opening parenthesis of a text. -/
theorem exists_last_open (cs : List Char) :
    '(' ∉ cs ∨ ∃ opened body, cs = opened ++ '(' :: body ∧ '(' ∉ body := by
  induction cs with
  | nil => exact .inl nofun
  | cons c cs ih =>
    rcases ih with hnone | ⟨opened, body, rfl, hbody⟩
    · by_cases hc : c = '('
      · exact .inr ⟨[], cs, by rw [hc]; rfl, hnone⟩
      · exact .inl fun hmem => (List.mem_cons.mp hmem).elim (fun heq => hc heq.symm) hnone
    · exact .inr ⟨c :: opened, body, rfl, hbody⟩

/-- The check refuses a text for a repeated group exactly when it has a group of this kind. -/
theorem occurs_isRepeatedGroup_iff {cs : List Char} :
    occurs isRepeatedGroup cs = true ↔ ∃ before body after, IsRefusedGroup cs before body after := by
  rw [occurs_iff]
  constructor
  · rintro ⟨front, rest, rfl, hshape⟩
    obtain ⟨text, after, rfl, hclose, hrepeat, hafter⟩ := isRepeatedGroup_iff.mp hshape
    rcases exists_last_open text with hopen | ⟨opened, body, rfl, hopen⟩
    · have hgroup : IsGroup (front ++ '(' :: (text ++ ')' :: after)) front text after :=
        ⟨rfl, isBalanced_of_not_mem hopen hclose⟩
      exact ⟨front, text, after, hgroup, hclose, hafter, .inl hrepeat⟩
    · rw [List.mem_append, List.mem_cons, not_or, not_or] at hclose
      have hgroup : IsGroup (front ++ '(' :: (opened ++ '(' :: body ++ ')' :: after))
          (front ++ '(' :: opened) body after :=
        ⟨by simp, isBalanced_of_not_mem hopen hclose.2.2⟩
      refine ⟨front ++ '(' :: opened, body, after, hgroup, hclose.2.2, hafter, ?_⟩
      rw [List.any_append, List.any_cons, Bool.or_eq_true] at hrepeat
      rcases hrepeat with hrepeat | hrepeat
      · exact .inr ⟨front, opened, rfl, hclose.1, hrepeat⟩
      · exact .inl hrepeat
  · rintro ⟨before, body, after, ⟨⟨rfl, _⟩, hclose, hafter, hrepeat⟩⟩
    rcases hrepeat with hrepeat | ⟨outer, opened, rfl, hopened, hrepeat⟩
    · exact ⟨before, _, rfl, isRepeatedGroup_iff.mpr ⟨body, after, rfl, hclose, hrepeat, hafter⟩⟩
    · refine ⟨outer, _, List.append_assoc _ _ _, ?_⟩
      refine isRepeatedGroup_iff.mpr ⟨opened ++ '(' :: body, after, by simp, ?_, ?_, hafter⟩
      · rw [List.mem_append, List.mem_cons, not_or, not_or]
        exact ⟨hopened, by decide, hclose⟩
      · rw [List.any_append, hrepeat, Bool.true_or]

theorem isBlank_of_isRepeat {c : Char} (h : isRepeat c = true) : Text.isBlank c = false := by
  rw [isRepeat, Bool.or_eq_true, beq_iff_eq, beq_iff_eq] at h
  rcases h with rfl | rfl <;> decide

/-- A group that holds a repetition and is repeated is refused, unless a group is in it. -/
theorem IsExplosiveGroup.isRefusedGroup {cs before body after : List Char}
    (h : IsExplosiveGroup cs before body after) (hinner : ')' ∉ body) :
    IsRefusedGroup cs before body after := by
  refine ⟨h.toIsGroup, hinner, ?_, .inl h.repetition⟩
  have hrepeated := h.repeated
  cases after with
  | nil => cases hrepeated
  | cons c after =>
    rwa [List.dropWhile_cons_of_neg]
    simp [isBlank_of_isRepeat (c := c) hrepeated]

/-! ## Accepted texts -/

/-- The text shows one of the other shapes. -/
def showsOther (cs : List Char) : Bool :=
  occurs isLookAround cs || occurs isLargeCount cs || occurs isWildcardPair cs
    || occurs isExtensionGroup cs

theorem isExplosive_eq_false_iff {cs : List Char} :
    isExplosive cs = false ↔ showsOther cs = false ∧
      ∀ before body after, ¬ IsRefusedGroup cs before body after := by
  have hgroups : occurs isRepeatedGroup cs = false ↔
      ∀ before body after, ¬ IsRefusedGroup cs before body after := by
    rw [← Bool.not_eq_true, occurs_isRepeatedGroup_iff]
    simp only [not_exists]
  rw [← hgroups, isExplosive, showsOther]
  simp only [Bool.or_eq_false_iff]
  tauto

theorem check_text_eq_ok_iff {s : String} {limit : Value} {n : Number}
    (hlimit : limit.number? = some n) :
    check (.text s) limit = .ok s ↔
      n.less (.int s.length) = false ∧ isExplosive s.toList = false := by
  have hsource : (source (.text s)).display = s := rfl
  simp only [check, hsource, hlimit]
  split
  · next hlong => simp [hlong]
  · next hshort =>
    split
    · next hshape => simp [hshape]
    · next hshape => simp [hshort, hshape]

/-- What an accepted text shows. Of the groups in it, none is a refused one; so a group that
    holds a repetition and is repeated has a group in it. The text need not be balanced, and
    escapes and classes may stand in it: the check reads neither. -/
theorem accepted_iff {s : String} {limit : Value} {n : Number} (hlimit : limit.number? = some n) :
    (check (.text s) limit = .ok s ↔ n.less (.int s.length) = false ∧
      showsOther s.toList = false ∧
      ∀ before body after, ¬ IsRefusedGroup s.toList before body after) ∧
    (check (.text s) limit = .ok s → ∀ before body after,
      IsExplosiveGroup s.toList before body after → ∃ front inner back,
        IsGroup body front inner back) := by
  have hok : check (.text s) limit = .ok s ↔ n.less (.int s.length) = false ∧
      showsOther s.toList = false ∧
      ∀ before body after, ¬ IsRefusedGroup s.toList before body after := by
    rw [check_text_eq_ok_iff hlimit, isExplosive_eq_false_iff]
  refine ⟨hok, fun haccepted before body after hgroup => ?_⟩
  obtain ⟨_, _, hrefused⟩ := hok.mp haccepted
  by_cases hinner : ')' ∈ body
  · exact exists_isGroup hgroup.balanced hinner
  · exact absurd (hgroup.isRefusedGroup hinner) (hrefused before body after)

theorem accepted_iff_nested :
    (∀ before body after, ¬ IsRefusedGroup "((a+)b)+".toList before body after) ∧
      ∃ front inner back, IsGroup "(a+)b".toList front inner back := by
  have hlimit : (Value.int maxLength).number? = some (.int maxLength) := rfl
  have haccepted : check (.text "((a+)b)+") (.int maxLength) = .ok "((a+)b)+" :=
    (check_text_eq_ok_iff hlimit).mpr (by decide)
  have hbody : IsBalanced ('(' :: (['a', '+'] ++ ')' :: ['b'])) :=
    .group (isBalanced_of_not_mem (by decide) (by decide))
      (isBalanced_of_not_mem (by decide) (by decide))
  have hgroup : IsExplosiveGroup "((a+)b)+".toList [] "(a+)b".toList ['+'] :=
    ⟨⟨rfl, hbody⟩, by decide, by decide⟩
  obtain ⟨hiff, hinner⟩ := accepted_iff hlimit
  exact ⟨(hiff.mp haccepted).2.2, hinner haccepted _ _ _ hgroup⟩

/-- A repetition of a repetition slips through in one more pair of parentheses, without an escape
    or a class in the text. -/
theorem nested_group_accepted :
    check (.text "((a+))+") (.int maxLength) = .ok "((a+))+" ∧ IsBalanced "((a+))+".toList ∧
      (∀ c ∈ ['\\', '[', ']'], c ∉ "((a+))+".toList) ∧
      IsExplosiveGroup "((a+))+".toList [] "(a+)".toList ['+'] := by
  have hlimit : (Value.int maxLength).number? = some (.int maxLength) := rfl
  have hbody : IsBalanced ('(' :: (['a', '+'] ++ ')' :: [])) :=
    .group (isBalanced_of_not_mem (by decide) (by decide)) .nil
  have hwhole : IsBalanced ('(' :: ("(a+)".toList ++ ')' :: ['+'])) :=
    .group hbody (isBalanced_of_not_mem (by decide) (by decide))
  exact ⟨(check_text_eq_ok_iff hlimit).mpr (by decide), hwhole, by simp,
    ⟨⟨rfl, hbody⟩, by decide, by decide⟩⟩

end DocQuery.Pattern
