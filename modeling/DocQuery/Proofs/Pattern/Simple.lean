-- SUMMARY: Simple patterns: how they are read, and in which texts a search for them succeeds.
import Mathlib.Data.List.Infix
import DocQuery.Pattern.Reading
import DocQuery.Text.CodePoint

/-!
# Simple patterns

A pattern is simple when it is a row of characters, places and stars, without groups, classes,
alternatives, counts, or escapes of letters and digits. Its source is read in two steps: into
signs, where a backslash takes the sense of the character behind it, and into pieces, where a
star is joined with what it repeats. A search succeeds in a text when the pieces match at some
place in it. No flags are set: the start is that of the text, and the end is that of the text or
the place before a line end that ends it.
-/

namespace DocQuery.Pattern

open Text (CodePoint)

/-! ## Signs -/

/-- What matches one character. -/
inductive Atom where
  | literal (p : CodePoint)
  /-- Any character but a line end. -/
  | any
  deriving DecidableEq, Repr

/-- What a part of a source stands for. -/
inductive Sign where
  | atom (a : Atom)
  | start
  | finish
  | star
  /-- A part of what simple patterns do not have. -/
  | other (p : CodePoint)
  deriving DecidableEq, Repr

/-- The characters of groups, classes, alternatives, counts and of repetitions without a star. -/
def structureChars : List Char :=
  "()[]\x7b\x7d|+?\\".toList

/-- What a code point stands for where no backslash stands before it. -/
def Sign.plain : CodePoint → Sign
  | .char '.' => .atom .any
  | .char '^' => .start
  | .char '$' => .finish
  | .char '*' => .star
  | .char c => if structureChars.contains c then .other (.char c) else .atom (.literal (.char c))
  | p => .atom (.literal p)

/-- What a code point stands for behind a backslash: itself, unless it is a letter or a digit. -/
def Sign.escaped : CodePoint → Sign
  | .char c => if c.isAlphanum then .other (.char c) else .atom (.literal (.char c))
  | p => .atom (.literal p)

/-- The signs of a source. -/
def signs : List CodePoint → List Sign
  | [] => []
  | .char '\\' :: p :: rest => .escaped p :: signs rest
  | p :: rest => .plain p :: signs rest

/-- A backslash escapes what stands behind it; anything else stands for itself. -/
theorem signs_plain {p : CodePoint} {rest : List CodePoint} (h : p = .char '\\' → rest = []) :
    signs (p :: rest) = .plain p :: signs rest := by
  rw [signs]
  intro q qs hp hrest
  exact absurd (h hp) (hrest ▸ List.cons_ne_nil q qs)

/-- What a token stands for. -/
def Token.sign : Token → Sign
  | plain c => .plain (.char c)
  | escaped c => .escaped (.char c)

/-- A source without surrogates has its signs from the tokens that it is read by. -/
theorem signs_map_char (cs : List Char) : signs (cs.map .char) = (tokens cs).map Token.sign := by
  fun_induction tokens cs with
  | case1 c cs ih =>
    rw [List.map_cons, List.map_cons, signs, ih, List.map_cons, Token.sign]
  | case2 c cs hescape ih =>
    have hlast : CodePoint.char c = .char '\\' → cs.map CodePoint.char = [] := by
      intro hc
      rcases cs with _ | ⟨d, ds⟩
      · rfl
      · exact absurd rfl (hescape d ds (CodePoint.char.inj hc))
    rw [List.map_cons, signs_plain hlast, ih, List.map_cons, Token.sign]
  | case3 => rfl

/-! ## Pieces -/

/-- A piece of a simple pattern. -/
inductive Piece where
  | start
  | finish
  | one (a : Atom)
  /-- The atom any number of times. -/
  | many (a : Atom)
  deriving DecidableEq, Repr

/-- The pieces that signs make, if the pattern is simple. -/
def pieces? : List Sign → Option (List Piece)
  | [] => some []
  | .atom a :: .star :: rest => (pieces? rest).map (.many a :: ·)
  | .atom a :: rest => (pieces? rest).map (.one a :: ·)
  | .start :: rest => (pieces? rest).map (.start :: ·)
  | .finish :: rest => (pieces? rest).map (.finish :: ·)
  | .star :: _ | .other _ :: _ => none

/-! ## Matches -/

/-- The atom matches a code point. -/
def Atom.takes : Atom → CodePoint → Bool
  | literal p, q => p == q
  | any, q => q != .char '\n'

/-- Some code points in front are taken, as many as wanted, and `next` matches behind them. -/
def repeated (takes : CodePoint → Bool) (next : Bool → List CodePoint → Bool) :
    Bool → List CodePoint → Bool
  | atStart, [] => next atStart []
  | atStart, q :: text => next atStart (q :: text) || (takes q && repeated takes next false text)

/-- The pieces match in front of the rest of a text, which is the whole text `atStart`. -/
def matchesAt : List Piece → Bool → List CodePoint → Bool
  | [], _, _ => true
  | .start :: pieces, atStart, text => atStart && matchesAt pieces atStart text
  | .finish :: pieces, atStart, text =>
    (text == [] || text == [.char '\n']) && matchesAt pieces atStart text
  | .one _ :: _, _, [] => false
  | .one a :: pieces, _, q :: text => a.takes q && matchesAt pieces false text
  | .many a :: pieces, atStart, text => repeated a.takes (matchesAt pieces) atStart text

/-- The pieces match somewhere in a text. -/
def matchesIn (pieces : List Piece) (text : List CodePoint) : Bool :=
  repeated (fun _ => true) (matchesAt pieces) true text

/-- A search for a pattern succeeds in a text. None when the pattern is not simple. -/
def search? (pattern text : List CodePoint) : Option Bool :=
  (pieces? (signs pattern)).map fun pieces => matchesIn pieces text

/-! ## Reading rows of signs -/

theorem pieces?_atom {a : Atom} {ss : List Sign} (h : ss.head? ≠ some .star) :
    pieces? (.atom a :: ss) = (pieces? ss).map (.one a :: ·) := by
  rcases ss with _ | ⟨s, ss⟩
  · rfl
  · cases s with
    | star => exact absurd rfl h
    | atom _ | start | finish | other _ => rfl

/-- Signs are read in parts, unless a star stands between the parts. -/
theorem pieces?_append {ss ts : List Sign} {ps qs : List Piece} (hstar : ts.head? ≠ some .star)
    (hss : pieces? ss = some ps) (hts : pieces? ts = some qs) :
    pieces? (ss ++ ts) = some (ps ++ qs) := by
  fun_induction pieces? ss generalizing ps with
  | case1 =>
    cases hss
    exact hts
  | case2 _ _ ih | case4 _ ih | case5 _ ih =>
    obtain ⟨ps', hrest, rfl⟩ := Option.map_eq_some_iff.mp hss
    simp only [List.cons_append, pieces?, ih hrest, Option.map_some]
  | case3 a rest hnot ih =>
    obtain ⟨ps', hrest, rfl⟩ := Option.map_eq_some_iff.mp hss
    have hhead : (rest ++ ts).head? ≠ some .star := by
      rcases rest with _ | ⟨s, rest⟩
      · exact hstar
      · intro h
        exact hnot rest (congrArg (· :: rest) (Option.some.inj h))
    rw [List.cons_append, pieces?_atom hhead, ih hrest, Option.map_some, List.cons_append]
  | case6 => cases hss
  | case7 => cases hss

/-! ## Matching -/

/-- The piece that matches just `p`. -/
def Piece.literal (p : CodePoint) : Piece :=
  .one (.literal p)

theorem repeated_iff {takes : CodePoint → Bool} {next : Bool → List CodePoint → Bool}
    {atStart : Bool} {text : List CodePoint} :
    repeated takes next atStart text = true ↔
      ∃ front tail, text = front ++ tail ∧ (∀ q ∈ front, takes q = true) ∧
        next (atStart && front.isEmpty) tail = true := by
  induction text generalizing atStart with
  | nil =>
    constructor
    · intro h
      exact ⟨[], [], rfl, by simp, by simpa [repeated] using h⟩
    · rintro ⟨front, tail, hsplit, -, h⟩
      obtain ⟨rfl, rfl⟩ := List.append_eq_nil_iff.mp hsplit.symm
      simpa [repeated] using h
  | cons q text ih =>
    rw [repeated, Bool.or_eq_true, Bool.and_eq_true, ih]
    constructor
    · rintro (h | ⟨hq, front, tail, rfl, hfront, h⟩)
      · exact ⟨[], q :: text, rfl, by simp, by simpa using h⟩
      · exact ⟨q :: front, tail, rfl, List.forall_mem_cons.mpr ⟨hq, hfront⟩, by simpa using h⟩
    · rintro ⟨front, tail, hsplit, hfront, h⟩
      rcases front with _ | ⟨b, front⟩
      · cases hsplit
        exact .inl (by simpa using h)
      · obtain ⟨rfl, rfl⟩ := List.cons.inj hsplit
        obtain ⟨hq, hfront⟩ := List.forall_mem_cons.mp hfront
        exact .inr ⟨hq, front, tail, rfl, hfront, by simpa using h⟩

theorem matchesIn_iff {pieces : List Piece} {text : List CodePoint} :
    matchesIn pieces text = true ↔
      ∃ front tail, text = front ++ tail ∧ matchesAt pieces front.isEmpty tail = true := by
  simp [matchesIn, repeated_iff]

theorem matchesAt_literals {ps : List CodePoint} {pieces : List Piece} {atStart : Bool}
    {text : List CodePoint} :
    matchesAt (ps.map .literal ++ pieces) atStart text = true ↔
      ∃ tail, text = ps ++ tail ∧ matchesAt pieces (atStart && ps.isEmpty) tail = true := by
  induction ps generalizing atStart text with
  | nil => simp
  | cons p ps ih =>
    rcases text with _ | ⟨q, text⟩
    · simp [Piece.literal, matchesAt]
    · rw [List.map_cons, List.cons_append, Piece.literal, matchesAt, Bool.and_eq_true, ih]
      constructor
      · rintro ⟨hq, tail, rfl, h⟩
        exact ⟨tail, by rw [beq_iff_eq.mp hq, List.cons_append], by simpa using h⟩
      · rintro ⟨tail, hsplit, h⟩
        obtain ⟨rfl, rfl⟩ := List.cons.inj hsplit
        exact ⟨beq_self_eq_true q, tail, rfl, by simpa using h⟩

/-! ## Searches for rows of code points -/

theorem matchesIn_start {ps text : List CodePoint} :
    matchesIn (.start :: ps.map .literal) text = true ↔ ps <+: text := by
  rw [← List.append_nil (ps.map Piece.literal), matchesIn_iff]
  constructor
  · rintro ⟨front, tail, rfl, h⟩
    rw [matchesAt, Bool.and_eq_true, List.isEmpty_iff] at h
    obtain ⟨rfl, h⟩ := h
    obtain ⟨rest, rfl, -⟩ := matchesAt_literals.mp h
    exact List.prefix_append ps rest
  · rintro ⟨rest, rfl⟩
    have h : matchesAt (ps.map .literal ++ []) true (ps ++ rest) = true :=
      matchesAt_literals.mpr ⟨rest, rfl, by rw [matchesAt]⟩
    exact ⟨[], ps ++ rest, rfl, (Bool.true_and _).trans h⟩

/-- The end of a pattern is found at the end of the text, and before a line end there. -/
theorem matchesIn_finish {ps text : List CodePoint} :
    matchesIn (ps.map .literal ++ [.finish]) text = true ↔
      ps <:+ text ∨ ps ++ [.char '\n'] <:+ text := by
  rw [matchesIn_iff]
  constructor
  · rintro ⟨front, tail, rfl, h⟩
    obtain ⟨rest, rfl, hend⟩ := matchesAt_literals.mp h
    have hrest : rest = [] ∨ rest = [.char '\n'] := by simpa [matchesAt] using hend
    rcases hrest with rfl | rfl
    · exact .inl ⟨front, by rw [List.append_nil]⟩
    · exact .inr ⟨front, rfl⟩
  · rintro (⟨front, rfl⟩ | ⟨front, rfl⟩)
    · refine ⟨front, ps, rfl, matchesAt_literals.mpr ⟨[], (List.append_nil ps).symm, ?_⟩⟩
      simp [matchesAt]
    · refine ⟨front, ps ++ [.char '\n'], rfl, matchesAt_literals.mpr ⟨_, rfl, ?_⟩⟩
      simp [matchesAt]

/-- What is skipped around a row of code points may be nothing; so line ends around it, which
    are not skipped, do not matter. -/
theorem matchesIn_within {ps text : List CodePoint} :
    matchesIn (.many .any :: (ps.map .literal ++ [.many .any])) text = true ↔ ps <:+: text := by
  rw [matchesIn_iff]
  constructor
  · rintro ⟨front, tail, rfl, h⟩
    rw [matchesAt, repeated_iff] at h
    obtain ⟨skipped, tail, rfl, -, h⟩ := h
    obtain ⟨rest, rfl, -⟩ := matchesAt_literals.mp h
    exact ⟨front ++ skipped, rest, by simp only [List.append_assoc]⟩
  · rintro ⟨front, rest, rfl⟩
    refine ⟨front, ps ++ rest, List.append_assoc .., ?_⟩
    have hrest : ∀ b, matchesAt [.many .any] b rest = true := by
      intro b
      rw [matchesAt, repeated_iff]
      exact ⟨[], rest, rfl, by simp, by rw [matchesAt]⟩
    rw [matchesAt, repeated_iff]
    exact ⟨[], ps ++ rest, rfl, by simp, matchesAt_literals.mpr ⟨rest, rfl, hrest _⟩⟩

end DocQuery.Pattern
