-- SUMMARY: The meaning of match bodies: which documents they select.
import DocQuery.Encoding.Match
import DocQuery.Value.Less
import DocQuery.Proofs.Assoc

/-!
# Selection

A match body selects a document when every entry of it holds. Under a logical key stand
further bodies. Under any other key stands a condition on the value at that path: a
document of store operators, each of which must hold, or a value to be equal to. The
options of a search modify the search and hold of themselves.

What it means that a text holds a pattern is left open: `search pattern ignoresCase text`
stands for any meaning of it.
-/

namespace DocQuery.Selection

open Encoding (isLogical)

variable (search : Value → Bool → Value → Bool)

/-! ## Values at paths -/

/-- The value of a key of a mapping. -/
def step? (v : Value) (key : List Char) : Option Value :=
  v.entries?.bind (Assoc.find? (.text (String.ofList key)))

/-- The value at a path, where there is one. -/
def at? (doc : Value) (path : String) : Option Value :=
  (FieldName.splitOn '.' path.toList).foldlM step? doc

/-! ## Conditions -/

/-- A value meets a value to be equal to. A list meets what is in it. -/
def equals (x y : Value) : Bool :=
  match x, y with
  | .list _, .list _ => x == y
  | .list xs, _ => y.isIn xs
  | _, _ => x == y

/-- The first value lies below the second, or equals it where that is enough. -/
def below (strict : Bool) (x y : Value) : Bool :=
  match x.less? y with
  | some true => true
  | some false => !strict && x == y
  | none => false

/-- A value meets one of the items. -/
def among (x items : Value) : Bool :=
  items.members?.any fun ys => ys.any (equals x)

/-- A list has each of the items. -/
def hasAll (x items : Value) : Bool :=
  match x, items.members? with
  | .list xs, some ys => ys.all (·.isIn xs)
  | _, _ => false

/-- The options of a search let upper and lower case match each other. -/
def ignoresCase (options : Option Value) : Bool :=
  (options.bind Value.text?).any fun s => s.toList.contains 'i'

/-- A store operator with its operand holds of the value at a path, if there is one. -/
def operatorHolds (options : Option Value) (op : String) (arg : Value) (x : Option Value) :
    Bool :=
  match op with
  | "$options" => true
  | "$eq" => x.any (equals · arg)
  | "$ne" => !x.any (equals · arg)
  | "$gt" => x.any (below true arg ·)
  | "$gte" => x.any (below false arg ·)
  | "$lt" => x.any (below true · arg)
  | "$lte" => x.any (below false · arg)
  | "$in" => x.any (among · arg)
  | "$nin" => !x.any (among · arg)
  | "$all" => x.any (hasAll · arg)
  | "$exists" => x.isSome == arg.isGiven
  | "$regex" => x.any fun v => v.isText && search arg (ignoresCase options) v
  | _ => false

/-- The entries are store operators with their operands. -/
def areOperators (es : List (Value × Value)) : Bool :=
  !es.isEmpty && es.all fun (k, _) => k.display.toList.head? == some '$'

/-- A condition holds of the value at a path, if there is one. -/
def holds (condition : Value) (x : Option Value) : Bool :=
  match condition with
  | .map es =>
    if areOperators es then
      es.all fun (op, arg) =>
        operatorHolds search (Assoc.find? (.text "$options") es) op.keyText arg x
    else x.any (equals · condition)
  | _ => x.any (equals · condition)

/-! ## Bodies -/

/-- The verdicts of several bodies, joined as the key says. -/
def combine (key : String) (verdicts : List Bool) : Bool :=
  match key with
  | "$and" => verdicts.all id
  | "$or" => verdicts.any id
  | _ => !verdicts.any id

mutual

/-- A match body selects a document. -/
def selects (doc : Value) : Value → Bool
  | .map es => allHold doc es
  | _ => false

/-- All entries of a match body hold of a document. -/
def allHold (doc : Value) : List (Value × Value) → Bool
  | [] => true
  | (k, v) :: es =>
    (if isLogical k.keyText then combine k.keyText (verdicts doc v)
      else holds search v (at? doc k.keyText)) && allHold doc es

/-- The verdict of each body in a list. -/
def verdicts (doc : Value) : Value → List Bool
  | .list xs => bodyVerdicts doc xs
  | .tuple xs => bodyVerdicts doc xs
  | _ => []

/-- The verdicts of bodies. -/
def bodyVerdicts (doc : Value) : List Value → List Bool
  | [] => []
  | x :: xs => selects doc x :: bodyVerdicts doc xs

end

/-- One entry of a match body holds of a document. -/
def entryHolds (doc : Value) (key : String) (v : Value) : Bool :=
  if isLogical key then combine key (verdicts search doc v)
  else holds search v (at? doc key)

theorem bodyVerdicts_eq_map (doc : Value) (xs : List Value) :
    bodyVerdicts search doc xs = xs.map (selects search doc) := by
  induction xs with
  | nil => rfl
  | cons x xs ih => rw [bodyVerdicts, ih, List.map_cons]

theorem verdicts_list (doc : Value) (xs : List Value) :
    verdicts search doc (.list xs) = xs.map (selects search doc) := by
  rw [verdicts, bodyVerdicts_eq_map]

/-- A body selects a document when each of its entries holds. -/
theorem selects_object (doc : Value) (fields : List (String × Value)) :
    selects search doc (.object fields) = fields.all fun (k, v) => entryHolds search doc k v := by
  rw [Value.object, selects]
  induction fields with
  | nil => rfl
  | cons f fields ih =>
    rw [List.map_cons, allHold, ih, List.all_cons]
    rfl

/-! ## Mappings with texts as keys -/

theorem beq_text (s t : String) : (Value.text s == Value.text t) = (s == t) := by
  show Value.equal (.text s) (.text t) = (s == t)
  simp [Value.equal, Value.equalPlain, Value.number?, Value.text?]

theorem find?_object (key : String) (fields : List (String × Value)) :
    Assoc.find? (.text key) (fields.map fun (k, v) => (Value.text k, v)) =
      Assoc.find? key fields := by
  induction fields with
  | nil => rfl
  | cons f fields ih =>
    rw [List.map_cons, Assoc.find?, Assoc.find?, ih, beq_text]

theorem ofPairs_object (fields : List (String × Value)) :
    Assoc.ofPairs (fields.map fun (k, v) => (Value.text k, v)) =
      (Assoc.ofPairs fields).map fun (k, v) => (Value.text k, v) :=
  Assoc.ofPairs_map beq_text id fields

theorem allCanBeKeys_object (fields : List (String × Value)) :
    Value.allCanBeKeys ((fields.map fun (k, v) => (Value.text k, v)).map (·.1)) = true := by
  induction fields with
  | nil => rfl
  | cons f fields ih => exact ih

theorem splitOn_of_not_mem {sep : Char} {cs : List Char} (h : sep ∉ cs) :
    FieldName.splitOn sep cs = [cs] := by
  induction cs with
  | nil => rfl
  | cons c cs ih =>
    simp only [List.mem_cons, not_or] at h
    rw [FieldName.splitOn, if_neg (Ne.symm h.1), ih h.2]

theorem exists_splitOn_of_mem {sep : Char} {cs : List Char} (h : sep ∈ cs) :
    ∃ first second rest, FieldName.splitOn sep cs = first :: second :: rest := by
  have hsome : ∀ cs, ∃ first rest, FieldName.splitOn sep cs = first :: rest := by
    intro cs
    cases cs with
    | nil => exact ⟨[], [], rfl⟩
    | cons c cs =>
      rw [FieldName.splitOn]
      split
      · exact ⟨_, _, rfl⟩
      · split <;> exact ⟨_, _, rfl⟩
  induction cs with
  | nil => cases h
  | cons c cs ih =>
    rw [FieldName.splitOn]
    split
    · obtain ⟨first, rest, hrest⟩ := hsome cs
      exact ⟨[], first, rest, by rw [hrest]⟩
    · rename_i hne
      obtain ⟨first, second, rest, hrest⟩ := ih ((List.mem_cons.mp h).resolve_left (Ne.symm hne))
      exact ⟨c :: first, second, rest, by rw [hrest]⟩

/-- A path of one step is looked up among the fields. -/
theorem at?_object {key : String} (h : '.' ∉ key.toList) (fields : List (String × Value)) :
    at? (.object fields) key = Assoc.find? key fields := by
  rw [at?, splitOn_of_not_mem h]
  simp [step?, Value.object, Value.entries?, find?_object]

theorem areOperators_object {ops : List (String × Value)} (hne : ops ≠ [])
    (h : ∀ o ∈ ops, o.1.toList.head? = some '$') :
    areOperators (ops.map fun (k, v) => (Value.text k, v)) = true := by
  simp only [areOperators, List.isEmpty_map, List.all_map, Bool.and_eq_true, Bool.not_eq_true',
    List.isEmpty_eq_false_iff, List.all_eq_true]
  refine ⟨hne, fun o ho => ?_⟩
  simp [Value.display, h o ho]

/-- A value that reads as a document of store operators. -/
def readsAsOperators (v : Value) : Bool :=
  v.entries?.any areOperators

/-- Any other value is one to be equal to. -/
theorem holds_of_not_readsAsOperators {v : Value} (h : readsAsOperators v = false)
    (x : Option Value) : holds search v x = x.any (equals · v) := by
  cases v with
  | map es =>
    have hes : areOperators es = false := h
    simp [holds, hes]
  | _ => rfl

/-- A document of store operators holds when each of them holds. -/
theorem holds_operators {ops : List (String × Value)} (hne : ops ≠ [])
    (h : ∀ o ∈ ops, o.1.toList.head? = some '$') (x : Option Value) :
    holds search (.object ops) x =
      ops.all fun (op, arg) =>
        operatorHolds search (Assoc.find? "$options" ops) op arg x := by
  rw [Value.object, holds, if_pos (areOperators_object hne h), find?_object, List.all_map]
  rfl

end DocQuery.Selection
