-- SUMMARY: Conditions on one field, and their operator documents.
import DocQuery.FieldName
import DocQuery.Order
import DocQuery.Pattern.Literal
import DocQuery.Pattern.Safety
import DocQuery.Wire.Date

/-!
# Constraints

A constraint compares one field with a value. It compiles to the wire name of the field
and an operator document, in which each store operator stands with its operand. A value
that does not fit the operator is an error that names field and operator.
-/

namespace DocQuery

/-- A condition on a field. -/
structure Constraint where
  field : String
  operator : Operator
  value : Value

/-- Store operators with their operands, in order. -/
abbrev OperatorDoc := List (String × Value)

namespace Constraint

/-! ## Building -/

/-- A field name that is not blank. -/
def fieldName (name : String) (v : Value) : Checked String :=
  match Record.text name v with
  | .ok s =>
    if (Text.trim Text.isBlank s.toList).isEmpty then Record.refuse name (.rule .blankField)
    else .ok s
  | refused => refused

/-- The constraint with given fields. -/
def ofArgs (args : Record.Args) : Except Error Constraint :=
  let value (_ : String) (v : Value) : Checked Value := .ok v
  let checked :=
    (((Record.field args "field" none fieldName).and
      (Record.field args "operator" (some .equal) (Record.word Operator))).and
      (Record.field args "value" (some .null) value)).and
      (Record.noOthers args ["field", "operator", "value"])
  checked.toExcept.map fun (((field, operator), value), _) => ⟨field, operator, value⟩

/-- The constraint of a field, an operator and a value as a caller wrote them. The operator
    is read first. -/
def ofValues (field operator value : Value) : Except Error Constraint := do
  let op ← Vocabulary.read Operator operator
  let f ← (fieldName "field" field).toExcept
  .ok ⟨f, op, value⟩

/-! ## Operands -/

/-- The store operator of a plain comparison. -/
def comparison? : Operator → Option String
  | .equal => some "$eq"
  | .notEqual => some "$ne"
  | .greater => some "$gt"
  | .atLeast => some "$gte"
  | .less => some "$lt"
  | .atMost => some "$lte"
  | _ => none

/-- The store operator of a comparison with a list. -/
def membership? : Operator → Option String
  | .oneOf => some "$in"
  | .noneOf => some "$nin"
  | .allOf => some "$all"
  | _ => none

/-- The store operator of a comparison with a date. -/
def dateComparison? : Operator → Option String
  | .before => some "$lt"
  | .after => some "$gt"
  | .onOrBefore => some "$lte"
  | .onOrAfter => some "$gte"
  | _ => none

/-- The items of a list, a tuple or a set. -/
def collection? : Value → Option (List Value)
  | .list xs => some xs
  | .tuple xs => some xs
  | .set _ xs => some xs
  | _ => none

/-- The two items of a pair. -/
def pair? : Value → Option (Value × Value)
  | .list [low, high] => some (low, high)
  | .tuple [low, high] => some (low, high)
  | _ => none

/-- A checked pattern; its fault is a failed conversion. -/
def safePattern (v : Value) : Except Error String :=
  match Pattern.check v (.int Pattern.maxLength) with
  | .error (.argument (.pattern fault)) => .error (.unfit (.pattern fault))
  | r => r

/-- The operator document of a pattern for code points that are matched literally, with
    given text before and after them. -/
def literalDoc (lead : String) (ps : List Text.CodePoint) (trail : String) : OperatorDoc :=
  [("$regex", .ofPoints
    (Text.CodePoint.ofText lead ++ Pattern.escape ps ++ Text.CodePoint.ofText trail))]

/-- The operator document of a text operator. -/
def textDoc (op : Operator) (v : Value) : Except Error OperatorDoc :=
  match op, v with
  | .like, .regex r => do
    let source ← safePattern v
    let options := if r.ignoresCase then [("$options", Value.text "i")] else []
    .ok (("$regex", .text source) :: options)
  | _, _ =>
    match v.points? with
    | none => .error (.unfit (.noText v.kindName))
    | some ps =>
      if op = .like then
        (safePattern v).map fun _ => [("$regex", Pattern.source v)]
      else if Pattern.maxLength < ps.length then
        .error (.unfit (.textTooLong ps.length Pattern.maxLength))
      else
        match op with
        | .contains => .ok (literalDoc ".*" ps ".*" ++ [("$options", .text "i")])
        | .startsWith => .ok (literalDoc "^" ps "")
        | .endsWith => .ok (literalDoc "" ps "$")
        | _ => .error (.compilation (.described ("Unsupported operator: " ++ op.name)))

/-- The operator document of an interval, with given wire forms of its ends. -/
def intervalDoc (low high : Value) : OperatorDoc :=
  [("$gte", low), ("$lte", high)]

/-- The wire form of a bound that is read as a date. -/
def dateBound (v : Value) : Except Error Value := do
  let t ← DateTime.ofValue v
  Wire.date (.datetime t)

/-- The operator document of an operator and a value. -/
def operatorDoc (op : Operator) (v : Value) : Except Error OperatorDoc :=
  match comparison? op, membership? op, dateComparison? op with
  | some name, _, _ => (Wire.ofValue v).map fun w => [(name, w)]
  | none, some name, _ =>
    match collection? v with
    | some xs => (Wire.ofItems xs).map fun ws => [(name, .list ws)]
    | none => .error (.unfit (.noCollection v.kindName))
  | none, none, some name => (dateBound v).map fun w => [(name, w)]
  | none, none, none =>
    match op, v with
    | .present, .bool b => .ok [("$exists", .bool b)]
    | .present, _ => .error (.unfit (.noTruth v.kindName))
    | .between, _ =>
      match pair? v with
      | some (low, high) => do .ok (intervalDoc (← Wire.ofValue low) (← Wire.ofValue high))
      | none => .error (.unfit .noPair)
    | .betweenDates, _ =>
      match pair? v with
      | some (low, high) => do .ok (intervalDoc (← dateBound low) (← dateBound high))
      | none => .error (.unfit .noPair)
    | _, _ => textDoc op v

/-! ## Compiling -/

/-- A failed conversion, with the constraint that it happened in. An invalid argument is told as
    one. -/
def locate (c : Constraint) : Error → Error
  | .conversion fault .null _ => .conversion fault (.text c.field) (.text c.operator.name)
  | .argument fault =>
    .conversion (.described fault.message) (.text c.field) (.text c.operator.name)
  | e => e

/-- The wire name of the field. -/
def wireField (c : Constraint) : String :=
  FieldName.wire (.text c.field)

/-- The wire name of the field and the operator document. -/
def compile (c : Constraint) : Except Error (String × OperatorDoc) :=
  match operatorDoc c.operator c.value with
  | .ok doc => .ok (c.wireField, doc)
  | .error e => .error (c.locate e)

end Constraint

end DocQuery
