-- SUMMARY: The rows of a table: the labels of the groups next to their counts.
import DocQuery.Group.Table
import DocQuery.Proofs.Except
import DocQuery.Proofs.Value.Digits

/-!
# Rows of tables

A table has one row for each group, once all labels are found. What holds of the counts of a
result holds of the counts in its rows.
-/

namespace DocQuery

namespace GroupResult

/-- The labels of the groups, in their order. -/
def HasLabels (r : GroupResult) (labels : List String) : Prop :=
  List.Forall₂ (fun g label => r.label g.key = .ok label) r.toGroups labels

namespace HasLabels

variable {r : GroupResult} {labels : List String}

theorem rows_eq (h : r.HasLabels labels) : r.rows = .ok (labels.zip r.counts) := by
  unfold HasLabels at h
  rw [rows, counts, mapM_eq_ok_iff]
  generalize r.toGroups = groups at h
  induction h with
  | nil => exact .nil
  | cons hlabel _ ih =>
    refine .cons ?_ ih
    rw [hlabel]
    rfl

theorem counts_eq (h : r.HasLabels labels) : (labels.zip r.counts).map (·.2) = r.counts := by
  refine List.map_snd_zip (Nat.le_of_eq ?_)
  rw [counts, List.length_map, h.length_eq]

theorem forall_mem_rows (h : r.HasLabels labels) {P : Value → Prop} :
    (∀ row ∈ labels.zip r.counts, P row.2) ↔ ∀ count ∈ r.counts, P count := by
  rw [← List.forall_mem_map (P := P) (f := fun row : Table.Row => row.2), h.counts_eq]

theorem exists_mem_rows (h : r.HasLabels labels) {P : Value → Prop} :
    (∃ row ∈ labels.zip r.counts, P row.2) ↔ ∃ count ∈ r.counts, P count := by
  have hnone := not_congr (h.forall_mem_rows (P := fun count => ¬ P count))
  simpa only [not_forall, not_not, exists_prop] using hnone

end HasLabels

end GroupResult

end DocQuery
