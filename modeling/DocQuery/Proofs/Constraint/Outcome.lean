-- SUMMARY: Every way in which the compilation of a constraint ends.
import DocQuery.Proofs.Constraint
import DocQuery.Proofs.Value.Timely
import DocQuery.Proofs.Wire.Date

/-!
# Outcomes of constraints

A constraint compiles to its wire field and an operator document, or it is refused with a
failed conversion that names its field and its operator. There is one other end: a date
that can be read, but whose offset moves it out of the calendar, overflows, and the
overflow names neither.
-/

namespace DocQuery

/-! ## Readings -/

namespace DateTime

/-- The reading that an ISO text stands for, with its own offset. -/
def isoReading? (cs : List Char) : Option DateTime :=
  let cs := Text.trim Text.isBlank cs
  let cs := match cs.getLast? with
    | some c => if c = 'Z' || c = 'z' then cs.dropLast ++ "+00:00".toList else cs
    | none => cs
  IsoText.read? cs

/-- The reading that a value stands for, with its own offset. None when it is no date. -/
def reading? : Value → Option DateTime
  | .map es =>
    if (Value.map es).isTagged "Date" then
      (Value.field es "iso").points?.bind fun ps => isoReading? (ps.map (·.shown))
    else none
  | .datetime t => some t
  | .date d => some (midnight d)
  | .text s => isoReading? s.toList
  | .brokenText t => isoReading? (t.points.map (·.shown))
  | .tagKey k => isoReading? k.text.toList
  | .int n => ofEpoch? n
  | _ => none

/-- An error that a constraint tells as its own. -/
inductive IsRefusal : Error → Prop
  | unfit (fault : ConversionFault) : IsRefusal (.unfit fault)
  | argument (fault : ArgumentFault) : IsRefusal (.argument fault)

theorem isRefusal_showing (fault : ConversionFault) (v : Value) :
    IsRefusal ((Error.unfit fault).showing v) := by
  unfold Error.showing
  split
  · exact .unfit fault
  · exact .argument .intTooLong

/-- How a value is read, by the reading that it stands for. -/
inductive IsReadBy : Option DateTime → Except Error DateTime → Prop
  | reading (t : DateTime) : IsReadBy (some t) t.toUtc
  | refused {e : Error} (h : IsRefusal e) : IsReadBy none (.error e)

theorem ofIso_isReadBy (given : Value) (cs : List Char) :
    IsReadBy (isoReading? cs) (ofIso given cs) := by
  unfold isoReading? ofIso
  dsimp only
  cases IsoText.read? _ with
  | none => exact .refused (.unfit _)
  | some t => exact .reading t

/-- A reading in UTC is read as it is. -/
theorem isReadBy_utc {t : DateTime} (h : t.offset = some 0) : IsReadBy (some t) (.ok t) := by
  rw [← toUtc_of_offset h]
  exact .reading t

/-- A value is read as the reading that it stands for, brought to UTC, or not at all. -/
theorem ofValue_isReadBy (v : Value) : IsReadBy (reading? v) (ofValue v) := by
  cases v with
  | map es =>
    rw [reading?, ofValue]
    cases htagged : (Value.map es).isTagged "Date" <;>
      cases hiso : (Value.field es "iso").points?
    case true.some ps => exact ofIso_isReadBy _ _
    all_goals exact .refused (isRefusal_showing _ _)
  | datetime t => exact .reading t
  | date d => exact isReadBy_utc rfl
  | text s => exact ofIso_isReadBy _ _
  | brokenText t => exact ofIso_isReadBy _ _
  | tagKey k => exact ofIso_isReadBy _ _
  | int n =>
    rw [reading?, ofValue]
    cases hepoch : ofEpoch? n with
    | none => exact .refused (isRefusal_showing _ _)
    | some t => exact isReadBy_utc (offset_of_utcAt? hepoch)
  | _ => exact .refused (.unfit _)

end DateTime

/-- The value stands for a point in time that has no UTC reading. -/
def Value.isOutside (v : Value) : Bool :=
  (DateTime.reading? v).any fun t => t.toUtc?.isNone

namespace Constraint

open DateTime (IsRefusal)

/-! ## Operands -/

/-- The operands of an operator are read up to a date that is outside of the calendar. -/
def readsOutside (op : Operator) (v : Value) : Bool :=
  match op with
  | .equal | .notEqual | .greater | .atLeast | .less | .atMost => !v.isTimely
  | .oneOf | .noneOf | .allOf => (collection? v).any fun xs => !Value.areTimely xs
  | .before | .after | .onOrBefore | .onOrAfter => v.isOutside
  | .between => (pair? v).any fun (low, high) => !(low.isTimely && high.isTimely)
  | .betweenDates =>
    (pair? v).any fun (low, high) =>
      low.isOutside || ((DateTime.reading? low).isSome && high.isOutside)
  | .present | .contains | .startsWith | .endsWith | .like => false

/-- How operands are read: they overflow when a date is `outside` of the calendar, and
    otherwise there is a result or they are refused. -/
inductive Ends {α : Type} : (outside : Bool) → Except Error α → Prop
  | ok (a : α) : Ends false (.ok a)
  | refused {e : Error} (h : IsRefusal e) : Ends false (.error e)
  | overflow : Ends true (.error .overflow)

namespace Ends

variable {α β : Type} {outside : Bool} {x : Except Error α}

theorem unfit (fault : ConversionFault) : Ends false (.error (.unfit fault) : Except Error α) :=
  .refused (.unfit fault)

theorem of_overflowsUnless {inside : Bool} (h : OverflowsUnless inside x) : Ends (!inside) x := by
  obtain ⟨rfl, a, rfl⟩ | ⟨rfl, rfl⟩ := h
  · exact .ok a
  · exact .overflow

theorem map (h : Ends outside x) (f : α → β) : Ends outside (x.map f) := by
  cases h with
  | ok a => exact .ok (f a)
  | refused h => exact .refused h
  | overflow => exact .overflow

/-- What can only overflow comes first. -/
theorem bind_of_overflowsUnless {inside later : Bool} {f : α → Except Error β}
    (h : OverflowsUnless inside x) (hf : ∀ a, Ends later (f a)) :
    Ends (!inside || later) (x >>= f) := by
  obtain ⟨rfl, a, rfl⟩ | ⟨rfl, rfl⟩ := h
  · exact hf a
  · exact .overflow

end Ends

/-- A bound that stands for a reading overflows when the reading has no UTC form. -/
theorem dateBound_overflowsUnless {v : Value} {t : DateTime} (h : DateTime.reading? v = some t) :
    OverflowsUnless t.toUtc?.isSome (dateBound v) := by
  have hread := DateTime.ofValue_isReadBy v
  rw [h] at hread
  rw [dateBound]
  generalize DateTime.ofValue v = value at hread ⊢
  cases hread
  cases hutc : t.toUtc? with
  | none =>
    rw [DateTime.toUtc, hutc]
    exact .inr ⟨rfl, rfl⟩
  | some u =>
    have hinside : u.toUtc? = some u := by
      simp [DateTime.toUtc?, DateTime.offset_of_toUtc? hutc]
    have hdate := Wire.date_overflowsUnless u
    rw [hinside] at hdate
    rw [DateTime.toUtc, hutc]
    exact hdate

theorem dateBound_refused {v : Value} (h : DateTime.reading? v = none) :
    ∃ e, IsRefusal e ∧ dateBound v = .error e := by
  have hread := DateTime.ofValue_isReadBy v
  rw [h] at hread
  rw [dateBound]
  generalize DateTime.ofValue v = value at hread ⊢
  cases hread with
  | refused h => exact ⟨_, h, rfl⟩

/-- A bound is refused when it is no date, and overflows when it has no UTC reading. -/
theorem dateBound_ends (v : Value) : Ends v.isOutside (dateBound v) := by
  rw [Value.isOutside]
  cases hread : DateTime.reading? v with
  | none =>
    obtain ⟨e, he, hbound⟩ := dateBound_refused hread
    rw [hbound]
    exact .refused he
  | some t =>
    have hends := Ends.of_overflowsUnless (dateBound_overflowsUnless hread)
    rwa [Option.not_isSome] at hends

/-- The later bound is read only when the earlier one is. -/
theorem dateBounds_ends (low high : Value) :
    Ends (low.isOutside || ((DateTime.reading? low).isSome && high.isOutside))
      (do .ok (intervalDoc (← dateBound low) (← dateBound high))) := by
  rw [Value.isOutside]
  cases hread : DateTime.reading? low with
  | none =>
    obtain ⟨e, he, hbound⟩ := dateBound_refused hread
    rw [hbound]
    exact .refused he
  | some t =>
    have hends := Ends.bind_of_overflowsUnless (dateBound_overflowsUnless hread) fun l =>
      (dateBound_ends high).map fun h => intervalDoc l h
    rwa [Option.not_isSome] at hends

/-! ## Text operators -/

theorem safePattern_ends (v : Value) : Ends false (safePattern v) := by
  have hlimit : (Value.int Pattern.maxLength).number? = some (.int Pattern.maxLength) := rfl
  simp only [safePattern, Pattern.check, hlimit]
  split_ifs
  · exact .unfit _
  · exact .unfit _
  · exact .ok _

/-- A text operator takes a text or a pattern, and never overflows. -/
theorem textDoc_ends (op : Operator) (hop : op ∈ [.like, .contains, .startsWith, .endsWith])
    (v : Value) : Ends false (textDoc op v) := by
  unfold textDoc
  split
  case h_1 r =>
    exact (safePattern_ends _).map fun source =>
      ("$regex", Value.text source) :: if r.ignoresCase then [("$options", Value.text "i")] else []
  case h_2 =>
    split
    case h_1 => exact .unfit _
    case h_2 ps =>
      split_ifs
      · exact (safePattern_ends v).map fun _ => [("$regex", Pattern.source v)]
      · exact .unfit _
      · split
        case h_4 => simp_all
        all_goals exact .ok _

/-! ## Operators -/

section Operators

variable {op : Operator} {name : String} (v : Value)

theorem comparison_ends (hop : comparison? op = some name) :
    Ends (!v.isTimely) (operatorDoc op v) := by
  unfold operatorDoc
  rw [hop]
  exact .of_overflowsUnless ((Wire.ofValue_overflowsUnless v).map fun w => [(name, w)])

theorem membership_ends (halone : comparison? op = none) (hop : membership? op = some name) :
    Ends ((collection? v).any fun xs => !Value.areTimely xs) (operatorDoc op v) := by
  unfold operatorDoc
  rw [halone, hop]
  cases collection? v with
  | none => exact .unfit _
  | some xs =>
    exact .of_overflowsUnless
      ((Wire.ofItems_overflowsUnless xs).map fun ws => [(name, Value.list ws)])

theorem dateComparison_ends (halone : comparison? op = none) (hmember : membership? op = none)
    (hop : dateComparison? op = some name) : Ends v.isOutside (operatorDoc op v) := by
  unfold operatorDoc
  rw [halone, hmember, hop]
  exact (dateBound_ends v).map fun w => [(name, w)]

theorem between_ends :
    Ends ((pair? v).any fun (low, high) => !(low.isTimely && high.isTimely))
      (operatorDoc .between v) := by
  unfold operatorDoc
  cases pair? v with
  | none => exact .unfit _
  | some ends =>
    obtain ⟨low, high⟩ := ends
    exact .of_overflowsUnless ((Wire.ofValue_overflowsUnless low).bind fun l =>
      (Wire.ofValue_overflowsUnless high).map fun h => intervalDoc l h)

theorem betweenDates_ends :
    Ends ((pair? v).any fun (low, high) =>
      low.isOutside || ((DateTime.reading? low).isSome && high.isOutside))
      (operatorDoc .betweenDates v) := by
  unfold operatorDoc
  cases pair? v with
  | none => exact .unfit _
  | some ends => exact dateBounds_ends ends.1 ends.2

theorem present_ends : Ends false (operatorDoc .present v) := by
  cases v with
  | bool b => exact .ok _
  | _ => exact .unfit _

end Operators

/-- The operand of every operator is read, does not fit, or holds a date outside of the
    calendar. -/
theorem operatorDoc_ends (op : Operator) (v : Value) :
    Ends (readsOutside op v) (operatorDoc op v) := by
  cases op with
  | equal | notEqual | greater | atLeast | less | atMost => exact comparison_ends v rfl
  | oneOf | noneOf | allOf => exact membership_ends v rfl rfl
  | before | after | onOrBefore | onOrAfter => exact dateComparison_ends v rfl rfl rfl
  | between => exact between_ends v
  | betweenDates => exact betweenDates_ends v
  | present => exact present_ends v
  | contains => exact textDoc_ends .contains (by decide) v
  | startsWith => exact textDoc_ends .startsWith (by decide) v
  | endsWith => exact textDoc_ends .endsWith (by decide) v
  | like => exact textDoc_ends .like (by decide) v

/-! ## Compilation -/

/-- A refusal is told as a failed conversion that names the field and the operator. -/
theorem exists_locate_eq (c : Constraint) {e : Error} (h : IsRefusal e) :
    ∃ fault, c.locate e = .conversion fault (.text c.field) (.text c.operator.name) := by
  cases h with
  | unfit fault => exact ⟨fault, rfl⟩
  | argument fault => exact ⟨.described fault.message, rfl⟩

end Constraint

end DocQuery
