-- SUMMARY: Modifiers: the calls that build a query step by step, and what a failing call leaves.
import DocQuery.Query.Basic

/-!
# Modifiers

A query is built by a row of modifiers. Some of them take several items; they handle
one after the other, and when an item fails, what was done for the items before it
stays.

A condition may be written with its operator in the name of the field, after two
underscores: `plays__gt`. The last two underscores count, and only if what follows is an
operator and something stands before them.
-/

namespace DocQuery

/-! ## Attempts -/

/-- The state that a call leaves, and the error by which it ended early, if any. -/
structure Attempt (σ : Type) where
  state : σ
  fault? : Option Error := none

namespace Attempt

/-- A step that changes nothing when it fails. -/
def ofStep (s : σ) : Except Error σ → Attempt σ
  | .ok s' => ⟨s', none⟩
  | .error e => ⟨s, some e⟩

/-- A step for each item, up to the first that fails. -/
def each (step : σ → α → Except Error σ) (s : σ) : List α → Attempt σ
  | [] => ⟨s, none⟩
  | a :: rest =>
    match step s a with
    | .ok s' => each step s' rest
    | .error e => ⟨s, some e⟩

end Attempt

/-! ## Conditions -/

namespace Condition

/-- The code points before and behind the last two underscores. -/
def splitLast? : List Text.CodePoint → Option (List Text.CodePoint × List Text.CodePoint)
  | [] => none
  | .char '_' :: .char '_' :: rest =>
    match splitLast? (.char '_' :: rest) with
    | some (before, behind) => some (.char '_' :: before, behind)
    | none => some ([], rest)
  | p :: rest => (splitLast? rest).map fun (before, behind) => (p :: before, behind)

/-- The field and the operator that a key names. -/
def split (key : List Text.CodePoint) : List Text.CodePoint × Operator :=
  match splitLast? key with
  | some (field, suffix) =>
    match (Value.ofPoints suffix).text?.bind (Vocabulary.ofName? Operator) with
    | some op => if field.isEmpty then (key, .equal) else (field, op)
    | none => (key, .equal)
  | none => (key, .equal)

end Condition

/-! ## Modifiers -/

/-- What a caller offers as an alternative: a filter, a query, or something else. -/
inductive Alternative where
  | filter (id : FilterId)
  | query (q : Query)
  | other

/-- A call that changes a query. -/
inductive Modifier where
  /-- One more constraint. -/
  | constrain (field operator value : Value)
  /-- A constraint for each entry of a mapping. -/
  | constrainAll (conditions : Value)
  /-- One more group of alternatives. -/
  | choose (alternatives : List Alternative)
  /-- Further orderings. -/
  | order (orders : List Value)
  | skip (count : Value)
  | limit (count : Value)
  /-- Further fields to keep. -/
  | keys (names : List Value)

namespace Draft

/-- Adds a constraint. -/
def constrain (d : Draft) (field operator value : Value) : Except Error Draft :=
  (d.filters.add d.query.filter field operator value).map fun filters =>
    { d with filters := filters }

/-- Adds the constraint of an entry of a mapping of conditions. -/
def addCondition (d : Draft) (entry : Value × Value) : Except Error Draft :=
  match entry.1.points? with
  | some key =>
    let (field, operator) := Condition.split key
    d.constrain (.ofPoints field) (.text operator.name) entry.2
  | none => .error .mistyped

/-- The cell of an alternative. The filter of a query is copied first. -/
def alternativeId (filters : FilterStore) : Alternative → Except Error (FilterId × FilterStore)
  | .filter id => .ok (id, filters)
  | .query q => filters.copy q.filter
  | .other => .error .mistyped

/-- The cells of alternatives. -/
def alternativeIds (filters : FilterStore) :
    List Alternative → Except Error (List FilterId × FilterStore)
  | [] => .ok ([], filters)
  | a :: rest => do
    let (id, filters) ← alternativeId filters a
    let (ids, filters) ← alternativeIds filters rest
    .ok (id :: ids, filters)

/-- Adds a group of alternatives. -/
def choose (d : Draft) (alternatives : List Alternative) : Except Error Draft := do
  let (ids, filters) ← alternativeIds d.filters alternatives
  .ok { d with filters := filters.addGroup d.query.filter ids }

/-- Adds an ordering. -/
def addOrder (d : Draft) (order : Value) : Except Error Draft :=
  (Order.ofValue order).map fun o => { d with query.orders := d.query.orders ++ [o] }

/-- What a modifier leaves of a query. -/
def modify (d : Draft) : Modifier → Attempt Draft
  | .constrain field operator value => .ofStep d (d.constrain field operator value)
  | .constrainAll (.map entries) => Attempt.each addCondition d entries
  | .constrainAll _ => ⟨d, some .mistyped⟩
  | .choose alternatives => .ofStep d (d.choose alternatives)
  | .order orders => Attempt.each addOrder d orders
  | .skip count => ⟨{ d with query.skip := count }, none⟩
  | .limit count => ⟨{ d with query.limit := count }, none⟩
  | .keys names => ⟨{ d with query.keys := d.query.keys ++ names }, none⟩

end Draft

end DocQuery
