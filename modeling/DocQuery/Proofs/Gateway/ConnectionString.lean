-- SUMMARY: Which database a connection string names, for every combination of its parts.
import DocQuery.Gateway.Database
import DocQuery.Proofs.Json.Data

/-!
# Names in connection strings

A connection string has a scheme and an authority, and perhaps a path and options. The
database is its path. Where there is no path, the options are searched for one: what follows
their first slash is taken for the name of a database.
-/

namespace DocQuery

namespace ConnectionString

open Json (ofPoints_ofText points?_ofPoints)
open Text (CodePoint)
open Text.CodePoint (ofText)

/-- The parts of a connection string. The options may be any text. -/
structure Parts where
  scheme : String
  authority : List CodePoint
  /-- What stands between the slash behind the authority and the options. -/
  path : Option (List CodePoint) := none
  /-- What follows the question mark. -/
  options : Option (List CodePoint) := none
  known : scheme ∈ ["mongodb://", "mongodb+srv://"]
  given : authority ≠ []
  slash_not_mem : .char '/' ∉ authority
  mark_not_mem : .char '?' ∉ authority
  path_mark_not_mem : .char '?' ∉ path.getD []

namespace Parts

/-- The options with their question mark. -/
def tail (p : Parts) : List CodePoint :=
  p.options.elim [] (.char '?' :: ·)

/-- What follows the scheme. -/
def rest (p : Parts) : List CodePoint :=
  p.authority ++ (p.path.elim [] (.char '/' :: ·) ++ p.tail)

/-- The connection string with these parts. -/
def toValue (p : Parts) : Value :=
  .ofPoints (ofText p.scheme ++ p.rest)

/-- What follows the first slash of a text, up to a question mark. -/
def behindSlash (ps : List CodePoint) : List CodePoint :=
  ((ps.dropWhile (· != .char '/')).drop 1).takeWhile (· != .char '?')

/-- What is read as the name: the path, or without one, what follows the first slash of the
    options, up to a further question mark. -/
def name (p : Parts) : List CodePoint :=
  p.path.getD (p.options.elim [] behindSlash)

end Parts

/-- The database with a name; a name without characters names none. -/
def named (name : List CodePoint) : Value :=
  if name = [] then .null else .ofPoints name

theorem points?_named (name : List CodePoint) :
    (named name).points? = if name = [] then none else some name := by
  unfold named
  split
  · rfl
  · exact points?_ofPoints name

theorem named_inj {xs ys : List CodePoint} : named xs = named ys ↔ xs = ys := by
  refine ⟨fun h => ?_, congrArg named⟩
  have hpoints := congrArg Value.points? h
  rw [points?_named, points?_named] at hpoints
  split at hpoints <;> split at hpoints <;> simp_all

theorem isGiven_ofPoints {ps : List CodePoint} :
    (Value.ofPoints ps).isGiven = true ↔ ps ≠ [] := by
  unfold Value.ofPoints
  split
  · rename_i hbroken
    refine iff_of_true rfl ?_
    rintro rfl
    cases hbroken
  · simp [Value.isGiven, CodePoint.toText]

theorem isGiven_named {name : List CodePoint} : (named name).isGiven = true ↔ name ≠ [] := by
  unfold named
  split
  · rename_i hname
    exact iff_of_false nofun (not_not.mpr hname)
  · exact isGiven_ofPoints

/-! ## Reading the parts -/

theorem ne_of_not_mem {ps : List CodePoint} {c : Char} (h : .char c ∉ ps) :
    ∀ p ∈ ps, (p != .char c) = true := by
  intro p hp
  rw [bne_iff_ne]
  rintro rfl
  exact h hp

/-- No scheme begins another one. -/
theorem find?_scheme {scheme : String} (h : scheme ∈ schemes) (rest : List CodePoint) :
    schemes.find? (fun s => (ofText s).isPrefixOf (ofText scheme ++ rest)) = some scheme := by
  simp only [schemes, List.mem_cons, List.not_mem_nil, or_false] at h
  rcases h with rfl | rfl <;> rfl

theorem databaseName?_scheme {scheme : String} (h : scheme ∈ schemes) (rest : List CodePoint) :
    databaseName? (ofText scheme ++ rest) = pathName? rest := by
  have hlength : scheme.length = (ofText scheme).length := by
    rw [ofText, List.length_map, String.length_toList]
  rw [databaseName?, find?_scheme h, Option.bind_some, hlength, List.drop_left]

theorem pathName?_authority {authority : List CodePoint} (hgiven : authority ≠ [])
    (hslash : .char '/' ∉ authority) (ps : List CodePoint) :
    (pathName? (authority ++ ps)).elim .null .ofPoints = named (Parts.behindSlash ps) := by
  have hskip := ne_of_not_mem hslash
  have hhost : ((authority ++ ps).takeWhile (· != .char '/')).isEmpty = false := by
    rw [List.takeWhile_append_of_pos hskip]
    simp [hgiven]
  have hname : (authority ++ ps).dropWhile (· != .char '/') = ps.dropWhile (· != .char '/') :=
    List.dropWhile_append_of_pos hskip
  simp only [pathName?, hhost, hname, Bool.false_or, List.isEmpty_iff]
  unfold named Parts.behindSlash
  split <;> rfl

namespace Parts

theorem behindSlash_split {front : List CodePoint} (hfront : .char '/' ∉ front)
    (back : List CodePoint) :
    behindSlash (front ++ .char '/' :: back) = back.takeWhile (· != .char '?') := by
  rw [behindSlash, List.dropWhile_append_of_pos (ne_of_not_mem hfront),
    List.dropWhile_cons_of_neg (by simp), List.drop_one, List.tail_cons]

theorem behindSlash_of_not_mem {ps : List CodePoint} (h : .char '/' ∉ ps) :
    behindSlash ps = [] := by
  rw [behindSlash, List.dropWhile_eq_nil_iff.mpr (ne_of_not_mem h)]
  rfl

/-- There is more than a question mark behind the first slash. -/
theorem behindSlash_ne_nil_iff {ps : List CodePoint} : behindSlash ps ≠ [] ↔
    ∃ front c back, .char '/' ∉ front ∧ c ≠ .char '?' ∧ ps = front ++ .char '/' :: c :: back := by
  constructor
  · intro h
    by_cases hslash : .char '/' ∈ ps
    · obtain ⟨front, back, rfl, hfront⟩ := List.eq_append_cons_of_mem hslash
      rw [behindSlash_split hfront] at h
      cases back with
      | nil => exact absurd rfl h
      | cons c back =>
        refine ⟨front, c, back, hfront, ?_, rfl⟩
        rintro rfl
        exact h (List.takeWhile_cons_of_neg (by simp))
    · exact absurd (behindSlash_of_not_mem hslash) h
  · rintro ⟨front, c, back, hfront, hc, rfl⟩
    rw [behindSlash_split hfront, List.takeWhile_cons_of_pos (by simpa using hc)]
    exact List.cons_ne_nil c _

theorem behindSlash_mark (options : List CodePoint) :
    behindSlash (.char '?' :: options) = behindSlash options := by
  rw [behindSlash, List.dropWhile_cons_of_pos (by decide)]
  rfl

theorem takeWhile_tail (p : Parts) : p.tail.takeWhile (· != .char '?') = [] := by
  unfold tail
  cases p.options with
  | none => rfl
  | some options => exact List.takeWhile_cons_of_neg (by simp)

theorem behindSlash_rest (p : Parts) :
    behindSlash (p.path.elim [] (.char '/' :: ·) ++ p.tail) = p.name := by
  cases hpath : p.path with
  | some path =>
    have hmark : .char '?' ∉ path := by
      have hmark := p.path_mark_not_mem
      rwa [hpath] at hmark
    have hsplit : behindSlash (.char '/' :: (path ++ p.tail)) =
        (path ++ p.tail).takeWhile (· != .char '?') :=
      behindSlash_split List.not_mem_nil _
    rw [name, hpath]
    show behindSlash (.char '/' :: (path ++ p.tail)) = path
    rw [hsplit, List.takeWhile_append_of_pos (ne_of_not_mem hmark), takeWhile_tail,
      List.append_nil]
  | none =>
    rw [name, hpath]
    show behindSlash p.tail = p.options.elim [] behindSlash
    unfold tail
    cases p.options with
    | none => rfl
    | some options => exact behindSlash_mark options

theorem isGiven_toValue (p : Parts) : p.toValue.isGiven = true := by
  rw [toValue, isGiven_ofPoints, rest]
  simp [p.given]

/-- The database of a connection string is the one that is read as its name. -/
theorem database_toValue (p : Parts) : database p.toValue = .ok (named p.name) := by
  have hscheme : p.scheme ∈ schemes := p.known
  rw [database, p.isGiven_toValue, if_pos rfl, toValue, points?_ofPoints]
  show Except.ok _ = _
  rw [databaseName?_scheme hscheme, rest, pathName?_authority p.given p.slash_not_mem,
    behindSlash_rest]

end Parts

/-- What is read as the name is the path, unless there is none and the options have a slash with
    more than a question mark behind it. -/
theorem Parts.name_eq_iff (p : Parts) : p.name = p.path.getD [] ↔
    ¬ (p.path = none ∧ ∃ options front c back, p.options = some options ∧ .char '/' ∉ front ∧
      c ≠ .char '?' ∧ options = front ++ .char '/' :: c :: back) := by
  cases hpath : p.path with
  | some path =>
    rw [name, hpath]
    exact iff_of_true rfl fun h => nomatch h.1
  | none =>
    rw [name, hpath]
    show p.options.elim [] behindSlash = [] ↔ _
    cases p.options with
    | none => exact iff_of_true rfl (by rintro ⟨_, _, _, _, _, ⟨⟩, _⟩)
    | some options =>
      show behindSlash options = [] ↔ _
      rw [← not_iff_not, not_not, ← ne_eq, behindSlash_ne_nil_iff]
      constructor
      · rintro ⟨front, c, back, h⟩
        exact ⟨rfl, options, front, c, back, rfl, h⟩
      · rintro ⟨_, _, front, c, back, ⟨⟩, h⟩
        exact ⟨front, c, back, h⟩

/-- A connection string names its path as the database, and nothing if the path is empty. If it
    has no path, it names what follows the first slash of its options, up to a further question
    mark. So it names its path or nothing, unless it has no path and its options have a slash
    with more than a question mark behind it. -/
theorem database_named (p : Parts) :
    (∀ path, p.path = some path → database p.toValue = .ok (named path)) ∧
      (p.path = none →
        database p.toValue = .ok (named (p.options.elim [] Parts.behindSlash))) ∧
      (database p.toValue = .ok (named (p.path.getD [])) ↔
        ¬ (p.path = none ∧ ∃ options front c back, p.options = some options ∧
          .char '/' ∉ front ∧ c ≠ .char '?' ∧ options = front ++ .char '/' :: c :: back)) := by
  rw [p.database_toValue]
  refine ⟨fun path hpath => ?_, fun hpath => ?_, ?_⟩
  · rw [Parts.name, hpath]
    rfl
  · rw [Parts.name, hpath]
    rfl
  · rw [Except.ok.injEq, named_inj]
    exact p.name_eq_iff

/-- A file among the options is taken for a database. -/
theorem file_taken_for_database :
    let p : Parts := {
      scheme := "mongodb://"
      authority := ofText "db.test"
      options := some (ofText "tlsCAFile=/etc/ca.pem")
      known := by decide
      given := by decide
      slash_not_mem := by decide
      mark_not_mem := by decide
      path_mark_not_mem := by decide }
    p.toValue = .text "mongodb://db.test?tlsCAFile=/etc/ca.pem" ∧ p.path = none ∧
      database p.toValue = .ok (.text "etc/ca.pem") := by
  intro p
  have hwritten : ofText p.scheme ++ p.rest =
      ofText "mongodb://db.test?tlsCAFile=/etc/ca.pem" := by
    decide
  have hname : named p.name = .ofPoints (ofText "etc/ca.pem") :=
    congrArg named (by decide : p.name = ofText "etc/ca.pem")
  refine ⟨?_, rfl, ?_⟩
  · rw [Parts.toValue, hwritten, ofPoints_ofText]
  · rw [p.database_toValue, hname, ofPoints_ofText]

end ConnectionString

/-- A database known by its connection string only can be used if it was enabled and the
    string names a database. -/
theorem Database.exists_make (p : ConnectionString.Parts) (enabled : Value) (connected : Bool)
    (replies : Replies DatabaseReply) :
    ∃ d, make p.toValue .null enabled connected replies = .ok d ∧
      d.name = ConnectionString.named p.name ∧
      (d.isAvailable = true ↔ enabled.isGiven = true ∧ p.name ≠ []) := by
  have hmade : make p.toValue .null enabled connected replies =
      (ConnectionString.database p.toValue).bind fun name =>
        .ok ⟨p.toValue, name, enabled, if connected then some replies else none,
          .ofList (.connection replies) []⟩ := rfl
  rw [hmade, p.database_toValue]
  refine ⟨_, rfl, rfl, ?_⟩
  simp only [isAvailable, p.isGiven_toValue, Bool.or_true, Bool.and_true, Bool.and_eq_true,
    ConnectionString.isGiven_named]

end DocQuery
