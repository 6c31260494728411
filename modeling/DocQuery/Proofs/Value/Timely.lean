-- SUMMARY: A value has a wire form exactly when all its points in time lie in the calendar.
import DocQuery.Wire.Date

/-!
# Timely values

A point in time near the first or the last day of the calendar may have no UTC reading:
its offset moves it out of the calendar. A value has a wire form when no point in time
inside of it is moved out, and it overflows otherwise. Nothing else can fail.
-/

namespace DocQuery

namespace Value

mutual

/-- Every point in time in a value has a UTC reading. -/
def isTimely : Value → Bool
  | .datetime t => t.toUtc?.isSome
  | .list xs => areTimely xs
  | .tuple xs => areTimely xs
  | .map es => haveTimely es
  | _ => true

/-- Every point in time in some values has a UTC reading. -/
def areTimely : List Value → Bool
  | [] => true
  | x :: xs => isTimely x && areTimely xs

/-- Every point in time in the values of some entries has a UTC reading. -/
def haveTimely : List (Value × Value) → Bool
  | [] => true
  | (_, v) :: es => isTimely v && haveTimely es

end

end Value

/-! ## Computations that can only overflow -/

/-- The computation succeeds if all is `inside` of the calendar, and overflows otherwise. -/
def OverflowsUnless {α : Type} (inside : Bool) (x : Except Error α) : Prop :=
  (inside = true ∧ ∃ a, x = .ok a) ∨ (inside = false ∧ x = .error .overflow)

namespace OverflowsUnless

variable {α β : Type} {inside : Bool} {x : Except Error α}

theorem ok (a : α) : OverflowsUnless true (.ok a : Except Error α) :=
  .inl ⟨rfl, a, rfl⟩

theorem exists_ok (h : OverflowsUnless true x) : ∃ a, x = .ok a := by
  obtain ⟨_, hok⟩ | ⟨hinside, _⟩ := h
  · exact hok
  · cases hinside

theorem map (h : OverflowsUnless inside x) (f : α → β) : OverflowsUnless inside (x.map f) := by
  obtain ⟨hinside, a, rfl⟩ | ⟨hinside, rfl⟩ := h
  · exact .inl ⟨hinside, f a, rfl⟩
  · exact .inr ⟨hinside, rfl⟩

theorem bind {later : Bool} {f : α → Except Error β} (h : OverflowsUnless inside x)
    (hf : ∀ a, OverflowsUnless later (f a)) : OverflowsUnless (inside && later) (x >>= f) := by
  obtain ⟨rfl, a, rfl⟩ | ⟨rfl, rfl⟩ := h
  · exact hf a
  · exact .inr ⟨rfl, rfl⟩

end OverflowsUnless

/-! ## Wire forms -/

namespace DateTime

theorem toUtc_overflowsUnless (t : DateTime) : OverflowsUnless t.toUtc?.isSome t.toUtc := by
  rw [toUtc]
  cases t.toUtc? with
  | none => exact .inr ⟨rfl, rfl⟩
  | some u => exact .ok u

end DateTime

namespace Wire

theorem date_overflowsUnless (t : DateTime) :
    OverflowsUnless t.toUtc?.isSome (date (.datetime t)) :=
  (t.toUtc_overflowsUnless.map DateTime.wireText).map fun s => taggedDate (.text s)

mutual

/-- A timely value has a wire form; any other overflows. -/
theorem ofValue_overflowsUnless : ∀ v : Value, OverflowsUnless v.isTimely (ofValue v)
  | .datetime t => date_overflowsUnless t
  | .date d => .ok (taggedDate (.text (DateTime.midnight d).wireText))
  | .map es => by
    rw [Value.isTimely, ofValue]
    exact (ofEntries_overflowsUnless es).map fun fields => Value.object (Assoc.ofPairs fields)
  | .list xs => by
    rw [Value.isTimely, ofValue]
    exact (ofItems_overflowsUnless xs).map Value.list
  | .tuple xs => by
    rw [Value.isTimely, ofValue]
    exact (ofItems_overflowsUnless xs).map Value.list
  | .pointer p => .ok p.toWire
  | .null | .bool _ | .int _ | .float _ | .text _ | .brokenText _ | .tagKey _ | .set _ _
  | .bytes _ | .objectId _ | .regex _ | .order _ => .ok _

theorem ofItems_overflowsUnless : ∀ xs : List Value,
    OverflowsUnless (Value.areTimely xs) (ofItems xs)
  | [] => .ok []
  | x :: xs => by
    rw [Value.areTimely, ofItems]
    refine (ofValue_overflowsUnless x).bind fun w => ?_
    exact (ofItems_overflowsUnless xs).map fun ws => w :: ws

theorem ofEntries_overflowsUnless : ∀ es : List (Value × Value),
    OverflowsUnless (Value.haveTimely es) (ofEntries es)
  | [] => .ok []
  | (k, v) :: es => by
    rw [Value.haveTimely, ofEntries]
    refine (ofValue_overflowsUnless v).bind fun w => ?_
    exact (ofEntries_overflowsUnless es).map fun ws => (k.keyText, w) :: ws

end

end Wire

end DocQuery
