-- SUMMARY: Copies of queries, and queries made of several: any of them, or all of them.
import DocQuery.Query.Basic

/-!
# Combined queries

A copy of a query shares nothing with it. Several queries for one class can be combined:
into a query for the rows that pass any of their filters, or into one for the rows that
pass all of them. A combined query takes over filters only, no orderings and no page,
and shares nothing with the queries that it is made of.
-/

namespace DocQuery

/-- What a caller gives to be combined: nothing, a query, or something else. -/
inductive Operand where
  | nothing
  | query (q : Query)
  | other

namespace Operand

/-- The operand is there. -/
def isGiven : Operand → Bool
  | nothing => false
  | _ => true

/-- The queries among the operands, which must all be for one class. -/
def queriesFor (className : Value) : List Operand → Except Error (List Query)
  | [] => .ok []
  | query q :: rest =>
    if q.className == className then (queriesFor className rest).map (q :: ·)
    else .error (.argument .mixedClasses)
  | _ :: _ => .error .mistyped

/-- The class of the operands, and their queries. -/
def combine (operands : List Operand) : Except Error (Value × List Query) :=
  match operands.filter isGiven with
  | [] => .error (.argument .noQueries)
  | query q :: rest => (queriesFor q.className (query q :: rest)).map fun qs => (q.className, qs)
  | _ :: _ => .error .mistyped

end Operand

namespace FilterStore

/-- Copies of groups of filters. -/
def copyGroups : List (List FilterId) → FilterStore →
    Except Error (List (List FilterId) × FilterStore)
  | [], s => .ok ([], s)
  | g :: gs, s => do
    let (group, s) ← s.copyAll g
    let (groups, s) ← copyGroups gs s
    .ok (group :: groups, s)

/-- Adds the conditions of a filter to another one; its alternatives are copied. -/
def append (s : FilterStore) (target source : FilterId) : Except Error FilterStore := do
  let cell := s.get source
  let (groups, s) ← s.copyGroups cell.groups
  .ok (s.modify target fun t =>
    { constraints := t.constraints ++ cell.constraints, groups := t.groups ++ groups })

end FilterStore

namespace Draft

/-- A copy that shares nothing with the query. -/
def clone (d : Draft) : Except Error Draft := do
  let (id, filters) ← d.filters.copy d.query.filter
  .ok ⟨filters, { d.query with filter := id }⟩

/-- The query for the rows that pass the filter of any operand. -/
def anyOf (filters : FilterStore) (operands : List Operand) : Except Error Draft := do
  let (className, queries) ← Operand.combine operands
  let d ← make filters className
  let (ids, filters) ← d.filters.copyAll (queries.map (·.filter))
  .ok { d with filters := filters.addGroup d.query.filter ids }

/-- The query for the rows that pass the filters of all operands. -/
def allOf (filters : FilterStore) (operands : List Operand) : Except Error Draft := do
  let (className, queries) ← Operand.combine operands
  let d ← make filters className
  let filters ← queries.foldlM (fun s q => s.append d.query.filter q.filter) d.filters
  .ok { d with filters := filters }

end Draft

end DocQuery
