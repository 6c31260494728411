-- SUMMARY: The rules for sources of search patterns, and the flags that a source sets.
import DocQuery.Pattern.Reading
import DocQuery.Text.Blank
import DocQuery.Text.Name

/-!
# The syntax of patterns

A pattern is a choice of alternatives, and each of them a row of parts. Groups hold a
pattern in brackets; a question mark behind the opening bracket makes them something
else: named or not counted, a look ahead or behind, a condition, flags, or a comment.

The fuel of the readers bounds how deep they call each other. At most five calls stand
between two tokens, so five for each token and for the end are enough.
-/

namespace DocQuery.Pattern

/-! ## Names, flags and comments -/

/-- The name of a group, up to the character that ends it. -/
def groupName (stop : Char) : Reading String := do
  let name ← textUntil stop
  if Text.isName name then return String.ofList name else refuse

/-- The number of the group with a name. -/
def groupNamed (name : String) : Reading Nat := do
  match (← get).names.lookup name with
  | some n => return n
  | none => refuse

/-- The group that a condition asks for, by name or by number. A group that is told by its
    number may come later. -/
def conditionGroup : Reading Nat := do
  let text ← textUntil ')'
  if Text.isName text then groupNamed (String.ofList text)
  else
    match Whole.ofChars .null text with
    | .ok (.ofNat n) =>
      if n = 0 then refuse
      modify fun p => { p with wanted := n :: p.wanted }
      return n
    | _ => refuse

/-- The flags of a flag group, whose first letter is `c`: the flags that are turned on and
    off for the group. None when the flags are set for the whole pattern. -/
def flagGroup (c : Char) : Reading (Option (List PatternFlag × List PatternFlag)) := do
  let letters ← if c = '-' then pure [] else (c :: ·) <$> takeAll PatternFlag.isLetter
  let on := letters.filterMap PatternFlag.ofLetter?
  if on.contains .ascii && on.contains .unicode then refuse
  match ← if c = '-' then pure (.plain '-') else take with
  | .plain ')' =>
    modify fun p => { p with flags := p.flags ++ on }
    return none
  | .plain ':' =>
    if on.contains .template then refuse
    return some (on, [])
  | .plain '-' =>
    let off := (← takeAll PatternFlag.isLetter).filterMap PatternFlag.ofLetter?
    expect ':'
    if on.contains .template || off.isEmpty then refuse
    if off.any fun f => f.isReach || f == .template || on.contains f then refuse
    return some (on, off)
  | _ => refuse

/-- Passes a comment in brackets. -/
def comment : Reading Unit := do
  let p ← get
  match p.rest.dropWhile (· != .plain ')') with
  | _ :: rest => set { p with rest := rest }
  | [] => refuse

/-- Passes a comment up to the end of its line. -/
def lineComment : Reading Unit :=
  modify fun p => { p with rest := (p.rest.dropWhile (· != .plain '\n')).drop 1 }

/-! ## Patterns -/

/-- The width of a row of parts. -/
def rowWidth (parts : List Part) : Width :=
  parts.foldr (fun part w => w.add part.width) .zero

mutual

/-- The alternatives up to the end of the pattern or of its group. The first one of the
    whole pattern may begin with flags. -/
def alternatives (verbose first : Bool) : Nat → Reading Width
  | 0 => refuse
  | fuel + 1 => do
    let w ← row verbose first [] fuel
    if ← accept '|' then
      let flags := (← get).flags
      let v ← alternatives (verbose || (first && flags.contains .verbose)) false fuel
      return w.or v
    else return w

/-- The parts of one alternative, behind those that are `done`, which are given last
    first. -/
def row (verbose first : Bool) (done : List Part) : Nat → Reading Width
  | 0 => refuse
  | fuel + 1 => do
    match ← peek? with
    | none | some (.plain '|') | some (.plain ')') => return rowWidth done
    | some (.escaped c) =>
      advance
      let part ← escapedPart c
      row verbose first (part :: done) fuel
    | some (.plain c) =>
      advance
      if verbose && Text.isPlainBlank c then row verbose first done fuel
      else if verbose && c == '#' then
        lineComment
        row verbose first done fuel
      else
        match c with
        | '(' =>
          let (verbose, done) ← group verbose first done fuel
          row verbose first done fuel
        | '[' =>
          let part ← charClass
          row verbose first (part :: done) fuel
        | '^' | '$' => row verbose first (.place :: done) fuel
        | '*' =>
          let done ← repeatLast 0 none done
          row verbose first done fuel
        | '+' =>
          let done ← repeatLast 1 none done
          row verbose first done fuel
        | '?' =>
          let done ← repeatLast 0 (some 1) done
          row verbose first done fuel
        | '{' =>
          let done ← match ← counts? with
            | some (least, most) => repeatLast least most done
            | none => pure (.one :: done)
          row verbose first done fuel
        | _ => row verbose first (.one :: done) fuel

/-- A group, whose opening bracket was read, behind the parts that are done: the parts
    with it, and whether blanks do not count from here on. -/
def group (verbose first : Bool) (done : List Part) : Nat → Reading (Bool × List Part)
  | 0 => refuse
  | fuel + 1 => do
    if !(← accept '?') then
      let part ← counted verbose none fuel
      return (verbose, part :: done)
    match ← take with
    | .plain ':' | .plain '>' =>
      let w ← body verbose fuel
      return (verbose, .matcher w :: done)
    | .plain '#' =>
      comment
      return (verbose, done)
    | .plain '=' | .plain '!' =>
      let _ ← body verbose fuel
      return (verbose, .matcher .zero :: done)
    | .plain '<' =>
      let sign ← take
      unless sign == .plain '=' || sign == .plain '!' do refuse
      let behind := (← get).behind
      modify fun p => { p with behind := behind.or (some p.groups.length) }
      let w ← body verbose fuel
      modify fun p => { p with behind := behind, looks := w :: p.looks }
      return (verbose, .matcher .zero :: done)
    | .plain '(' =>
      let n ← conditionGroup
      checkBehind n
      let w ← row verbose false [] fuel
      let v ← if ← accept '|' then row verbose false [] fuel else pure .zero
      expect ')'
      return (verbose, .matcher (w.or v) :: done)
    | .plain 'P' =>
      if ← accept '<' then
        let name ← groupName '>'
        let part ← counted verbose (some name) fuel
        return (verbose, part :: done)
      else if ← accept '=' then
        let n ← groupNamed (← groupName ')')
        let part ← backReference n
        return (verbose, part :: done)
      else refuse
    | .plain c =>
      if c != '-' && !PatternFlag.isLetter c then refuse
      match ← flagGroup c with
      | some (on, off) =>
        let w ← body ((verbose || on.contains .verbose) && !off.contains .verbose) fuel
        return (verbose, .matcher w :: done)
      | none =>
        unless first && done.isEmpty do refuse
        return ((← get).flags.contains .verbose, done)
    | .escaped _ => refuse

/-- What a group holds, and its closing bracket. -/
def body (verbose : Bool) : Nat → Reading Width
  | 0 => refuse
  | fuel + 1 => do
    enter
    let w ← alternatives verbose false fuel
    leave
    expect ')'
    return w

/-- A counted group. -/
def counted (verbose : Bool) (name : Option String) : Nat → Reading Part
  | 0 => refuse
  | fuel + 1 => do
    let n ← openGroup name
    let w ← body verbose fuel
    closeGroup n w
    return .matcher w

end

/-! ## Sources -/

/-- What is known before a source is read. -/
def Progress.start (tokens : List Token) (flags : List PatternFlag) : Progress where
  rest := tokens
  flags := flags
  names := []
  groups := []
  behind := none
  wanted := []
  looks := []
  repeats := false
  depth := 0

/-- What can only be judged once all is read: the source ends where its pattern ends, all
    groups that are asked for are there, what lies behind is equally wide in every match,
    and templates repeat nothing. -/
def Progress.isComplete (p : Progress) : Bool :=
  p.rest.isEmpty && p.wanted.all (· ≤ p.groups.length) && p.looks.all Width.isFixed
    && !(p.repeats && p.flags.contains .template)

end Pattern

/-- The search pattern with a source and with flags given beside it, if the source follows
    the rules. -/
def Regex.ofSource (source : String) (given : List PatternFlag) : Except Error Regex := do
  let tokens := Pattern.tokens source.toList
  let fuel := 5 * (tokens.length + 1)
  let (_, p) ← (Pattern.alternatives (given.contains .verbose) true fuel).run
    (Pattern.Progress.start tokens given)
  if tokens.getLast? == some .backslash then .error .malformedPattern
  else if p.flags.contains .ascii && p.flags.contains .unicode then .error (.argument .flagConflict)
  else if p.isComplete then .ok ⟨source, PatternFlag.shown.filter p.flags.contains⟩
  else .error .malformedPattern

end DocQuery
