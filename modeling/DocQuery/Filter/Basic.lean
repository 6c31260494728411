-- SUMMARY: Filters: conjunctions of constraints and of groups of alternatives, and their match bodies.
import DocQuery.Constraint

/-!
# Filters

A filter holds constraints and groups of alternative filters. A document passes when it
meets every constraint and, of every group, some alternative.

A filter compiles to a match body. The constraints on one field share one operator
document; where it is a lone equality, its operand stands in its place. A single group
stands under `$or`, several under `$and`.
-/

namespace DocQuery

/-- A conjunction of constraints and of groups of alternatives. -/
inductive Filter where
  | mk (constraints : List Constraint) (groups : List (List Filter))
  deriving Inhabited

/-- The entries of a match body. -/
abbrev MatchBody := List (String × Value)

namespace Filter

/-- The constraints of a filter. -/
def constraints : Filter → List Constraint
  | mk cs _ => cs

/-- The groups of a filter. -/
def groups : Filter → List (List Filter)
  | mk _ gs => gs

/-- The filter lets every document pass. -/
def isEmpty (f : Filter) : Bool :=
  f.constraints.isEmpty && f.groups.isEmpty

/-! ## Constraints -/

/-- Operator documents by field, after one more for a field. -/
def addDoc (byField : List (String × OperatorDoc)) (field : String) (doc : OperatorDoc) :
    List (String × OperatorDoc) :=
  Assoc.assign field (Assoc.merge ((Assoc.find? field byField).getD []) doc) byField

/-- The operator documents of the fields, in the order in which the fields first occur. -/
def docsByField (docs : List (String × OperatorDoc)) : List (String × OperatorDoc) :=
  docs.foldl (fun acc (field, doc) => addDoc acc field doc) []

/-- What stands for an operator document in a match body. -/
def operand : OperatorDoc → Value
  | [("$eq", v)] => v
  | doc => .object doc

/-- The match body of the operator documents. -/
def conjunction (docs : List (String × OperatorDoc)) : MatchBody :=
  (docsByField docs).map fun (field, doc) => (field, operand doc)

/-! ## Groups -/

/-- The alternatives of a group, as a match body. -/
def disjunction (alternatives : List Value) : Value :=
  .object [("$or", .list alternatives)]

/-- A match body with groups of alternatives added; groups without alternatives do not
    count. -/
def withGroups (body : MatchBody) (groups : List (List Value)) : MatchBody :=
  match groups.filter (!·.isEmpty) with
  | [] => body
  | [alternatives] => Assoc.assign "$or" (.list alternatives) body
  | several => Assoc.assign "$and" (.list (several.map disjunction)) body

/-! ## Compiling -/

mutual

/-- The match body of a filter. -/
def compile : Filter → Except Error MatchBody
  | mk cs gs => do
    let docs ← cs.mapM Constraint.compile
    let groups ← compileGroups gs
    .ok (withGroups (conjunction docs) groups)

/-- The alternatives of each group, as match bodies. -/
def compileGroups : List (List Filter) → Except Error (List (List Value))
  | [] => .ok []
  | g :: gs => do
    let alternatives ← compileGroup g
    let rest ← compileGroups gs
    .ok (alternatives :: rest)

/-- The alternatives of a group, as match bodies. -/
def compileGroup : List Filter → Except Error (List Value)
  | [] => .ok []
  | f :: fs => do
    let body ← compile f
    let rest ← compileGroup fs
    .ok (.object body :: rest)

end

end Filter

end DocQuery
