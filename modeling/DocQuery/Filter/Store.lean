-- SUMMARY: A store of filters that share alternatives by reference, and change in place.
import DocQuery.Filter.Basic

/-!
# Shared filters

Callers build filters step by step and put them into groups of others. A group keeps the
very filters that it was given, so what is later added to one shows in every filter that
holds it. The store keeps each such filter as a cell, and a group is a list of cells.

Resolving follows the references and yields the filter that a cell stands for at that
moment. Copying resolves a cell and stores the result in new cells.
-/

namespace DocQuery

/-- The place of a filter in the store. -/
abbrev FilterId := Nat

/-- A filter whose alternatives are other cells. -/
structure FilterCell where
  constraints : List Constraint
  groups : List (List FilterId)
  deriving Inhabited

namespace FilterCell

/-- The cell without conditions. -/
def empty : FilterCell := ⟨[], []⟩

/-- The cell lets every document pass. -/
def isEmpty (c : FilterCell) : Bool :=
  c.constraints.isEmpty && c.groups.isEmpty

end FilterCell

/-- All filters, by their places. -/
structure FilterStore where
  cells : List FilterCell
  deriving Inhabited

namespace FilterStore

/-- The store without filters. -/
def empty : FilterStore := ⟨[]⟩

/-- The cell at a place. -/
def get (s : FilterStore) (id : FilterId) : FilterCell :=
  s.cells[id]?.getD .empty

/-- The store with a new cell, and the place of that cell. -/
def push (s : FilterStore) (c : FilterCell) : FilterId × FilterStore :=
  (s.cells.length, ⟨s.cells ++ [c]⟩)

/-- The store with the cell at a place changed. -/
def modify (s : FilterStore) (id : FilterId) (f : FilterCell → FilterCell) : FilterStore :=
  ⟨s.cells.modify id f⟩

/-! ## Building -/

/-- Adds a constraint to a filter. -/
def addConstraint (s : FilterStore) (id : FilterId) (c : Constraint) : FilterStore :=
  s.modify id fun cell => { cell with constraints := cell.constraints ++ [c] }

/-- Adds the constraint of a field, an operator and a value as a caller wrote them. -/
def add (s : FilterStore) (id : FilterId) (field operator value : Value) :
    Except Error FilterStore :=
  (Constraint.ofValues field operator value).map (s.addConstraint id)

/-- Adds a group of those alternatives that have conditions, if there are any. -/
def addGroup (s : FilterStore) (id : FilterId) (alternatives : List FilterId) : FilterStore :=
  match alternatives.filter fun a => !(s.get a).isEmpty with
  | [] => s
  | group => s.modify id fun cell => { cell with groups := cell.groups ++ [group] }

/-! ## Resolving and copying -/

/-- The filter that a cell stands for, if no chain of references is longer than the
    fuel. -/
def resolve? (s : FilterStore) : Nat → FilterId → Option Filter
  | 0, _ => none
  | fuel + 1, id => do
    let cell := s.get id
    let groups ← cell.groups.mapM fun group => group.mapM (s.resolve? fuel)
    some (.mk cell.constraints groups)

/-- The filter that a cell stands for. A chain of references longer than the store leads
    back into itself. -/
def resolve (s : FilterStore) (id : FilterId) : Except Error Filter :=
  match s.resolve? (s.cells.length + 1) id with
  | some f => .ok f
  | none => .error .endless

/-- The match body of the filter that a cell stands for, if no chain of references is
    longer than the fuel. A constraint that does not compile is told even if the filter
    leads back into itself behind it. -/
def compileWithin (s : FilterStore) : Nat → FilterId → Except Error MatchBody
  | 0, _ => .error .endless
  | fuel + 1, id => do
    let cell := s.get id
    let docs ← cell.constraints.mapM Constraint.compile
    let groups ← cell.groups.mapM fun group =>
      group.mapM fun a => (s.compileWithin fuel a).map Value.object
    .ok (Filter.withGroups (Filter.conjunction docs) groups)

/-- The match body of the filter that a cell stands for. -/
def compile (s : FilterStore) (id : FilterId) : Except Error MatchBody :=
  s.compileWithin (s.cells.length + 1) id

mutual

/-- Stores a filter in new cells. -/
def alloc : Filter → FilterStore → FilterId × FilterStore
  | .mk cs gs, s =>
    let (groups, s) := allocGroups gs s
    s.push ⟨cs, groups⟩

/-- Stores the filters of the groups in new cells. -/
def allocGroups : List (List Filter) → FilterStore → List (List FilterId) × FilterStore
  | [], s => ([], s)
  | g :: gs, s =>
    let (group, s) := allocGroup g s
    let (groups, s) := allocGroups gs s
    (group :: groups, s)

/-- Stores the filters of a group in new cells. -/
def allocGroup : List Filter → FilterStore → List FilterId × FilterStore
  | [], s => ([], s)
  | f :: fs, s =>
    let (id, s) := alloc f s
    let (ids, s) := allocGroup fs s
    (id :: ids, s)

end

/-- A copy of a filter that shares nothing with it. -/
def copy (s : FilterStore) (id : FilterId) : Except Error (FilterId × FilterStore) :=
  (s.resolve id).map fun f => alloc f s

/-- Copies of several filters. -/
def copyAll : List FilterId → FilterStore → Except Error (List FilterId × FilterStore)
  | [], s => .ok ([], s)
  | id :: ids, s => do
    let (new, s) ← s.copy id
    let (news, s) ← copyAll ids s
    .ok (new :: news, s)

end FilterStore

end DocQuery
