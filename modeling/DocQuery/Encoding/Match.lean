-- SUMMARY: Encoding of match bodies: pointer columns, operands, and nested alternatives.
import DocQuery.Encoding.Value

/-!
# Encoded match bodies

A clause that compares a field with a pointer names the pointer column of the field. Any
other clause names the field itself for the server, and its column for the store.
Inside a list of alternatives, plain ids take the class of the first pointer among them.
-/

namespace DocQuery.Encoding

/-- The keys that hold lists of match bodies. -/
def isLogical (key : String) : Bool :=
  ["$and", "$or", "$nor"].contains key

/-- The store operators that take a list. -/
def isMembership (key : String) : Bool :=
  ["$in", "$nin", "$all"].contains key

/-- The value or some item of it is a pointer. -/
def hasPointerAtTop (v : Value) : Bool :=
  v.isPointer || (v.sequence?.any fun xs => xs.any Value.isPointer)

/-- The operand of a clause is a pointer, or an operator in it compares with one. -/
def holdsPointer (v : Value) : Bool :=
  v.isPointer
    || (!v.isTagged "Date" && (v.entries?.any fun es => es.any fun (_, x) => hasPointerAtTop x))

/-- The class of the first pointer among the items. -/
def commonClass? (xs : List Value) : Except Error (Option String) :=
  match xs.find? Value.isPointer with
  | some x => (Pointer.ofValue? x).map (·.map (·.className))
  | none => .ok none

/-- An item of a list of alternatives: a plain id becomes a pointer of the common class. -/
def member (target : Target) (common : Option String) (x : Value) : Except Error Value :=
  match common, x with
  | some className, .brokenText t =>
    .ok (.ofPoints (Text.CodePoint.ofText (className ++ "$") ++ t.points))
  | some className, x =>
    match x.text? with
    | some s =>
      if (Pointer.ofCompact? s).isSome then value target x
      else .ok (.text (className ++ "$" ++ x.display))
    | none => value target x
  | none, x => value target x

/-- A list of alternatives. -/
def membership (target : Target) (xs : List Value) : Except Error Value := do
  let common ← commonClass? xs
  (xs.mapM (member target common)).map .list

/-- The operand of one operator. -/
def operatorOperand (target : Target) (op : String) (v : Value) : Except Error Value :=
  match isMembership op, v.sequence? with
  | true, some xs => membership target xs
  | _, _ => value target v

/-- The operand of a clause: an operator document, or a value to be equal to. -/
def operand (target : Target) (v : Value) : Except Error Value :=
  match v with
  | .map es =>
    if v.isPointer || v.isDate then value target v
    else do
      let fields ← es.mapM fun (k, x) => do
        let w ← operatorOperand target k.keyText x
        .ok (k.keyText, w)
      .ok (.object (Assoc.ofPairs fields))
  | _ => value target v

/-- The name that a clause on a field has for a target. -/
def clauseName (target : Target) (key : String) (v : Value) : String :=
  if holdsPointer v then FieldName.pointerColumn key
  else match target with
    | .storage => FieldName.toStorage key
    | .remote => key

/-- A clause that holds no further bodies. -/
def clause (target : Target) (key : String) (v : Value) : Except Error (String × Value) :=
  if key.toList.head? = some '$' then (value target v).map fun w => (key, w)
  else (operand target v).map fun w => (clauseName target key v, w)

/-- What is no list can only stand for bodies if it has no members. -/
def noBodies (v : Value) : Except Error Value :=
  match v.members? with
  | some [] => .ok (.list [])
  | _ => .error .mistyped

mutual

/-- A match body for a target. -/
def matchBody (target : Target) : Value → Except Error Value
  | .map es => (matchEntries target es).map fun fields => .object (Assoc.ofPairs fields)
  | _ => .error .mistyped

/-- The clauses of a match body. -/
def matchEntries (target : Target) :
    List (Value × Value) → Except Error (List (String × Value))
  | [] => .ok []
  | (k, v) :: es => do
    let first ← (if isLogical k.keyText then
        (alternatives target v).map fun bs => (k.keyText, bs)
      else clause target k.keyText v)
    let rest ← matchEntries target es
    .ok (first :: rest)

/-- What a key holds that holds match bodies. -/
def alternatives (target : Target) : Value → Except Error Value
  | .list xs => (matchBodies target xs).map .list
  | .tuple xs => (matchBodies target xs).map .list
  | v => noBodies v

/-- Match bodies for a target. -/
def matchBodies (target : Target) : List Value → Except Error (List Value)
  | [] => .ok []
  | x :: xs => do
    let b ← matchBody target x
    let bs ← matchBodies target xs
    .ok (b :: bs)

end

end DocQuery.Encoding
