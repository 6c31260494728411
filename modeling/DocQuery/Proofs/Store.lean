-- SUMMARY: A store in memory: what the stages of a pipeline do to the documents of a collection.
import DocQuery.Proofs.Selection

/-!
# A store in memory

A store runs the stages of an encoded pipeline in turn, from the documents of a collection
on. Here are the stages that select, sort, group, reshape and count rows; of expressions,
references and constants; and of accumulators, sums of whole numbers and lists. A pipeline
with anything else has no outcome here. Neither has one that compares values without an
order when it sorts.
-/

namespace DocQuery.Store

open Selection (at? selects)

/-! ## Expressions -/

/-- The value of an expression over a row. What a reference does not find is null. -/
def evaluate? (row : Value) : Value → Option Value
  | .text s =>
    if s = "$$ROOT" then some row
    else match s.toList with
      | '$' :: path => some ((at? row (String.ofList path)).getD .null)
      | _ => some (.text s)
  | .map _ => none
  | v => some v

/-! ## Sorting -/

/-- What a row is sorted by: the value of a field. Null counts as absent. -/
def sortKey (field : String) (row : Value) : Option Value :=
  match at? row field with
  | some .null => none
  | x => x

/-- The first value lies below the second, and what is absent below everything else; none
    when the values cannot be compared. -/
def below? : Option Value → Option Value → Option Bool
  | _, none => some false
  | none, some _ => some true
  | some x, some y => if x == y then some false else x.less? y

/-- The first row has to stand above the second when rows are sorted by a field. -/
def above? (field : String) (direction a b : Value) : Option Bool :=
  if direction == .int (-1) then below? (sortKey field b) (sortKey field a)
  else below? (sortKey field a) (sortKey field b)

section Insertion

variable {α : Type} (above? : α → α → Option Bool)

/-- A row among sorted rows, below those that have to stand above it. -/
def insert? (a : α) : List α → Option (List α)
  | [] => some [a]
  | b :: rest => do
    if ← above? b a then (insert? a rest).map (b :: ·) else some (a :: b :: rest)

/-- The rows in order; of rows that lie in no order the earlier first. -/
def sort? : List α → Option (List α)
  | [] => some []
  | a :: rest => do insert? above? a (← sort? rest)

end Insertion

/-- The rows sorted by fields with directions, most significant first. -/
def sortBy? : List (Value × Value) → List Value → Option (List Value)
  | [], rows => some rows
  | (field, direction) :: fields, rows => do
    sort? (above? field.keyText direction) (← sortBy? fields rows)

/-! ## Grouping -/

mutual

/-- The form in which keys of groups are compared: lists and mappings as tuples. -/
def frozen : Value → Value
  | .map es => .tuple (frozenEntries es)
  | .list xs => .tuple (frozenItems xs)
  | v => v

/-- The items in the form in which they are compared. -/
def frozenItems : List Value → List Value
  | [] => []
  | x :: xs => frozen x :: frozenItems xs

/-- The entries as pairs, their values in the form in which they are compared. -/
def frozenEntries : List (Value × Value) → List Value
  | [] => []
  | (k, v) :: es => .tuple [k, frozen v] :: frozenEntries es

end

/-- The groups after a row with a key: it joins the group of its key, or begins one. -/
def join (key row : Value) : List (Value × List Value) → List (Value × List Value)
  | [] => [(key, [row])]
  | (k, members) :: groups =>
    if frozen k == frozen key then (k, members ++ [row]) :: groups
    else (k, members) :: join key row groups

/-- The groups of rows with their keys, in the order of their first rows. -/
def gather (keyed : List (Value × Value)) : List (Value × List Value) :=
  keyed.foldl (fun groups (key, row) => join key row groups) []

/-- The sum of the whole numbers among the values; none when there are other numbers. -/
def sum? : List Value → Option Int
  | [] => some 0
  | .int n :: vs => (sum? vs).map (n + ·)
  | .float _ :: _ => none
  | _ :: vs => sum? vs

/-- What an accumulator makes of the members of a group. -/
def accumulate? (members : List Value) (accumulator : Value) : Option Value :=
  match accumulator with
  | .map [(.text op, operand)] => do
    let values ← members.mapM (evaluate? · operand)
    match op with
    | "$sum" => (sum? values).map .int
    | "$push" => some (.list values)
    | _ => none
  | _ => none

/-- The row of a group. -/
def groupRow? (accumulators : List (Value × Value)) (g : Value × List Value) : Option Value := do
  let fields ← accumulators.mapM fun (name, a) => (accumulate? g.2 a).map fun v => (name, v)
  some (.map ((.text "_id", g.1) :: fields))

/-- One row for each group. -/
def group? (body : List (Value × Value)) (rows : List Value) : Option (List Value) := do
  let expression ← Assoc.find? (.text "_id") body
  let keyed ← rows.mapM fun row => (evaluate? row expression).map fun key => (key, row)
  (gather keyed).mapM (groupRow? (body.filter fun (name, _) => !(name == .text "_id")))

/-! ## Projection -/

/-- What a field of a projection leaves of a row: a computed value, or the value that is
    there. -/
def projected? (row name spec : Value) : Option (List (Value × Value)) :=
  if spec == .int 1 then some ((at? row name.keyText).toList.map fun v => (name, v))
  else match spec with
    | .text _ => (evaluate? row spec).map fun v => [(name, v)]
    | .map _ => none
    | _ => some []

/-- What a projection leaves of a row. The id stays unless it is excluded. -/
def project? (fields : List (Value × Value)) (row : Value) : Option Value := do
  let excluded := (Assoc.find? (.text "_id") fields).any (· == .int 0)
  let id := if excluded then [] else (at? row "_id").toList.map fun v => (Value.text "_id", v)
  let rest ← (fields.filter fun (name, _) => !(name == .text "_id")).mapM fun (name, spec) =>
    projected? row name spec
  some (.map (id ++ rest.flatten))

/-! ## Pipelines -/

variable (search : Value → Bool → Value → Bool)

/-- The rows after a stage. No row is left by a count of no rows. -/
def stage? (rows : List Value) (stage : Value) : Option (List Value) :=
  match stage with
  | .map [(.text op, body)] =>
    match op, body with
    | "$match", body => some (rows.filter fun row => selects search row body)
    | "$sort", .map fields => sortBy? fields rows
    | "$group", .map body => group? body rows
    | "$project", .map fields => rows.mapM (project? fields)
    | "$count", name => some (if rows.isEmpty then [] else [.map [(name, .int rows.length)]])
    | _, _ => none
  | _ => none

/-- The rows after the stages of a pipeline. -/
def run? (docs stages : List Value) : Option (List Value) :=
  stages.foldlM (stage? search) docs

end DocQuery.Store
