-- SUMMARY: What every operator document that a constraint compiles to looks like.
import DocQuery.Constraint
import DocQuery.Proofs.Assoc
import DocQuery.Proofs.Except

/-!
# Operator documents

A constraint compiles to a document of store operators that is not empty and names each
operator once. Options stand beside the search that they belong to.
-/

namespace DocQuery

/-- A document of store operators as a constraint compiles to it. -/
structure IsOperatorDoc (doc : OperatorDoc) : Prop where
  nonempty : doc ≠ []
  nodup : (Assoc.keys doc).Nodup
  lead : ∀ o ∈ doc, o.1.toList.head? = some '$'
  options : "$options" ∈ Assoc.keys doc → "$regex" ∈ Assoc.keys doc

namespace IsOperatorDoc

/-- The operators that stand alone. -/
def aloneOperators : List String :=
  ["$eq", "$ne", "$gt", "$gte", "$lt", "$lte", "$in", "$nin", "$all", "$exists", "$regex"]

theorem alone {op : String} (hop : op ∈ aloneOperators) (v : Value) :
    IsOperatorDoc [(op, v)] := by
  have hlead : op.toList.head? = some '$' ∧ op ≠ "$options" := by
    simp only [aloneOperators, List.mem_cons, List.not_mem_nil, or_false] at hop
    rcases hop with rfl | rfl | rfl | rfl | rfl | rfl | rfl | rfl | rfl | rfl | rfl <;> decide
  refine ⟨List.cons_ne_nil _ _, List.nodup_singleton _, fun o ho => ?_, fun hmem => ?_⟩
  · rw [List.mem_singleton.mp ho]
    exact hlead.1
  · exact absurd (List.mem_singleton.mp hmem).symm hlead.2

theorem interval (low high : Value) : IsOperatorDoc (Constraint.intervalDoc low high) := by
  refine ⟨List.cons_ne_nil _ _, ?_, fun o ho => ?_, fun hmem => ?_⟩
  · simp [Constraint.intervalDoc]
  · simp only [Constraint.intervalDoc, List.mem_cons, List.not_mem_nil, or_false] at ho
    rcases ho with rfl | rfl <;> simp
  · simp [Constraint.intervalDoc] at hmem

theorem search (pattern options : Value) :
    IsOperatorDoc [("$regex", pattern), ("$options", options)] := by
  refine ⟨List.cons_ne_nil _ _, ?_, fun o ho => ?_, fun _ => List.mem_cons_self⟩
  · simp
  · simp only [List.mem_cons, List.not_mem_nil, or_false] at ho
    rcases ho with rfl | rfl <;> simp

end IsOperatorDoc

namespace Constraint

theorem comparison?_mem {op : Operator} {name : String} (h : comparison? op = some name) :
    name ∈ IsOperatorDoc.aloneOperators := by
  cases op <;> cases h <;> decide

theorem membership?_mem {op : Operator} {name : String} (h : membership? op = some name) :
    name ∈ IsOperatorDoc.aloneOperators := by
  cases op <;> cases h <;> decide

theorem dateComparison?_mem {op : Operator} {name : String} (h : dateComparison? op = some name) :
    name ∈ IsOperatorDoc.aloneOperators := by
  cases op <;> cases h <;> decide

theorem isOperatorDoc_of_textDoc {op : Operator} {v : Value} {doc : OperatorDoc}
    (h : textDoc op v = .ok doc) : IsOperatorDoc doc := by
  have hregex : "$regex" ∈ IsOperatorDoc.aloneOperators := by decide
  unfold textDoc at h
  split at h
  · rename_i r
    obtain ⟨source, _, hdoc⟩ := exists_of_map_eq_ok (x := safePattern (.regex r))
      (f := fun source => ("$regex", Value.text source) ::
        if r.ignoresCase then [("$options", Value.text "i")] else []) h
    rw [← hdoc]
    split
    · exact .search _ _
    · exact .alone hregex _
  · split at h
    · cases h
    · split at h
      · obtain ⟨source, _, hdoc⟩ := exists_of_map_eq_ok h
        rw [← hdoc]
        exact .alone hregex _
      · split at h
        · cases h
        · split at h <;> cases h
          · exact .search _ _
          · exact .alone hregex _
          · exact .alone hregex _

/-- An interval whose ends are there. -/
theorem isOperatorDoc_of_ends {x y : Except Error Value} {doc : OperatorDoc}
    (h : (do .ok (intervalDoc (← x) (← y))) = (.ok doc : Except Error OperatorDoc)) :
    IsOperatorDoc doc := by
  cases x with
  | error e => cases h
  | ok low =>
    cases y with
    | error e => cases h
    | ok high =>
      cases h
      exact .interval low high

theorem isOperatorDoc_of_operatorDoc {op : Operator} {v : Value} {doc : OperatorDoc}
    (h : operatorDoc op v = .ok doc) : IsOperatorDoc doc := by
  have hexists : "$exists" ∈ IsOperatorDoc.aloneOperators := by decide
  unfold operatorDoc at h
  split at h
  · rename_i hname
    obtain ⟨w, _, hdoc⟩ := exists_of_map_eq_ok h
    rw [← hdoc]
    exact .alone (comparison?_mem hname) w
  · rename_i hname
    split at h
    · obtain ⟨ws, _, hdoc⟩ := exists_of_map_eq_ok h
      rw [← hdoc]
      exact .alone (membership?_mem hname) _
    · cases h
  · rename_i hname
    obtain ⟨w, _, hdoc⟩ := exists_of_map_eq_ok h
    rw [← hdoc]
    exact .alone (dateComparison?_mem hname) w
  · split at h
    · cases h
      exact .alone hexists _
    · cases h
    · split at h
      · exact isOperatorDoc_of_ends h
      · cases h
    · split at h
      · exact isOperatorDoc_of_ends h
      · cases h
    · exact isOperatorDoc_of_textDoc h

/-- A constraint compiles to a document of store operators on its wire field. -/
theorem isOperatorDoc_of_compile {c : Constraint} {doc : String × OperatorDoc}
    (h : c.compile = .ok doc) : IsOperatorDoc doc.2 := by
  unfold compile at h
  split at h
  · rename_i hdoc
    cases h
    exact isOperatorDoc_of_operatorDoc hdoc
  · cases h

end Constraint

end DocQuery
