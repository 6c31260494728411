-- SUMMARY: What trimming takes off a text, and what it leaves.
import DocQuery.Text.Blank
import Mathlib.Data.List.DropRight

/-!
# Trimmed texts

Trimming takes characters of one kind off the ends of a text. What it takes off does not
matter to what is left, and nothing is left of a text of such characters only.
-/

namespace DocQuery.Text

variable {p : Char → Bool}

/-- Characters at the end that are trimmed do not matter. -/
theorem trimRight_append_of_pos {back : List Char} (h : ∀ c ∈ back, p c = true) (cs : List Char) :
    trimRight p (cs ++ back) = trimRight p cs := by
  have hback : ∀ c ∈ back.reverse, p c = true := by
    simpa using h
  rw [trimRight, trimRight, List.reverse_append, List.dropWhile_append_of_pos hback]

/-- What is trimmed lies at both ends. -/
theorem exists_trim (p : Char → Bool) (cs : List Char) : ∃ front back,
    (∀ c ∈ front, p c = true) ∧ (∀ c ∈ back, p c = true) ∧ cs = front ++ trim p cs ++ back := by
  refine ⟨cs.takeWhile p, (cs.dropWhile p).rtakeWhile p, fun c => List.mem_takeWhile_imp,
    fun c => List.mem_rtakeWhile_imp, ?_⟩
  have hright : trim p cs ++ (cs.dropWhile p).rtakeWhile p = cs.dropWhile p :=
    List.rdropWhile_append_rtakeWhile
  rw [List.append_assoc, hright, List.takeWhile_append_dropWhile]

theorem mem_of_mem_trim {cs : List Char} {c : Char} (h : c ∈ trim p cs) : c ∈ cs := by
  obtain ⟨front, back, _, _, hcs⟩ := exists_trim p cs
  rw [hcs]
  exact List.mem_append_left _ (List.mem_append_right _ h)

theorem trim_eq_nil_iff {cs : List Char} : trim p cs = [] ↔ ∀ c ∈ cs, p c = true := by
  constructor
  · intro h
    obtain ⟨front, back, hfront, hback, hcs⟩ := exists_trim p cs
    rw [h, List.append_nil] at hcs
    rw [hcs]
    exact fun c hc => (List.mem_append.mp hc).elim (hfront c) (hback c)
  · intro h
    rw [trim, List.dropWhile_eq_nil_iff.mpr h]
    rfl

/-- Characters at the ends that are trimmed do not matter. -/
theorem trim_append_append {front back : List Char} (hfront : ∀ c ∈ front, p c = true)
    (hback : ∀ c ∈ back, p c = true) (cs : List Char) :
    trim p (front ++ cs ++ back) = trim p cs := by
  rw [trim, List.append_assoc, List.dropWhile_append_of_pos hfront, List.dropWhile_append]
  split
  · rename_i hcs
    rw [List.isEmpty_iff, List.dropWhile_eq_nil_iff] at hcs
    rw [trim_eq_nil_iff.mpr hcs, List.dropWhile_eq_nil_iff.mpr hback]
    rfl
  · exact trimRight_append_of_pos hback _

end DocQuery.Text
