-- SUMMARY: Simple patterns follow the rules for sources of search patterns.
import DocQuery.Pattern.Syntax
import DocQuery.Proofs.Pattern.Simple

/-!
# Simple patterns follow the rules

The readers of sources tell which of them follow the rules. A simple pattern does: each of its
signs is a token that the readers take as one part, as a place, or as a repetition of the part
before it, and nothing is left at the end.
-/

namespace DocQuery

open Text (CodePoint)
open Text.CodePoint (ofText)

namespace Pattern

/-! ## Signs and tokens -/

/-- The characters that begin or repeat a part, or end a row of parts. -/
def rowChars : List Char :=
  ['(', ')', '[', '{', '^', '$', '*', '+', '?', '|']

/-- The character of a place or a star. -/
def Sign.char? : Sign → Option Char
  | start => some '^'
  | finish => some '$'
  | star => some '*'
  | atom _ | other _ => none

theorem Token.cases_of_atom {t : Token} {a : Atom} (h : t.sign = .atom a) :
    (∃ c, t = .plain c ∧ c ∉ rowChars) ∨ ∃ c, t = .escaped c ∧ c.isAlphanum = false := by
  cases t with
  | plain c =>
    refine .inl ⟨c, rfl, ?_⟩
    intro hc
    have hall : rowChars.all (fun d => !(Token.plain d).sign matches .atom _) = true := by
      decide
    have hsign := List.all_eq_true.mp hall c hc
    rw [h] at hsign
    cases hsign
  | escaped c =>
    refine .inr ⟨c, rfl, ?_⟩
    rw [Token.sign, Sign.escaped] at h
    cases hc : c.isAlphanum with
    | false => rfl
    | true =>
      rw [hc] at h
      cases h

theorem Sign.eq_char_of_plain {q : CodePoint} {c : Char} (h : (plain q).char? = some c) :
    q = .char c := by
  unfold plain at h
  split at h
  · cases h
  · cases h
    rfl
  · cases h
    rfl
  · cases h
    rfl
  · split at h
    · cases h
    · cases h
  · cases h

theorem Token.eq_plain {t : Token} {c : Char} (h : t.sign.char? = some c) : t = .plain c := by
  cases t with
  | plain d => rw [CodePoint.char.inj (Sign.eq_char_of_plain h)]
  | escaped d =>
    rw [Token.sign, Sign.escaped] at h
    split at h
    · cases h
    · cases h

/-! ## Reading a row -/

variable {p : Progress} {t : Token} {ts : List Token} {done : List Part} {first : Bool}
  {fuel : Nat}

theorem run_bind_of_ok {x : Reading α} {k : α → Reading β} {p q : Progress} {a : α}
    (h : x.run p = .ok (a, q)) : (x >>= k).run p = (k a).run q := by
  rw [StateT.run_bind, h]
  rfl

theorem run_peek?_bind {k : Option Token → Reading α} :
    (peek? >>= k).run p = (k p.rest.head?).run p :=
  rfl

theorem run_advance_bind {k : Unit → Reading α} :
    (advance >>= k).run p = (k ()).run { p with rest := p.rest.drop 1 } :=
  rfl

theorem row_end (hp : p.rest = []) :
    (row false first done (fuel + 1)).run p = .ok (rowWidth done, p) := by
  rw [row, run_peek?_bind, hp]
  rfl

/-- What is neither a letter nor a digit is escaped to stand for itself. -/
theorem escapedPart_symbol {c : Char} (h : c.isAlphanum = false) : escapedPart c = pure .one := by
  have hne : ∀ ds : List Char, ds.all Char.isAlphanum = true → ds.contains c = false := by
    intro ds hds
    refine Bool.eq_false_iff.mpr fun hmem => ?_
    rw [List.all_eq_true.mp hds c (List.contains_iff_mem.mp hmem)] at h
    cases h
  have hdigit : c.isDigit = false := (Bool.or_eq_false_iff.mp h).2
  have hplace : isPlaceLetter c = false := hne _ (by decide)
  have hclass : isClassLetter c = false := hne _ (by decide)
  have hcontrol : controls.lookup c = none := by
    refine List.lookup_eq_none_iff.mpr fun e he => ?_
    have hkeys := hne (controls.map Prod.fst) (by decide)
    refine bne_iff_ne.mpr fun hc => ?_
    rw [hc, List.contains_iff_mem.mpr (List.mem_map_of_mem he)] at hkeys
    cases hkeys
  have hreserved : isReserved c = false := h
  have hcode : codeEscape? c = pure none := by
    have hletters := hne ['x', 'u', 'U', 'N'] (by decide)
    simp only [List.contains_eq_mem, List.mem_cons, List.not_mem_nil, or_false, not_or,
      decide_eq_false_iff_not] at hletters
    obtain ⟨_, _, _, _⟩ := hletters
    simp only [codeEscape?]
  simp [escapedPart, hplace, hclass, hcontrol, hdigit, hcode, hreserved]

theorem row_atom {a : Atom} (hp : p.rest = t :: ts) (ht : t.sign = .atom a) :
    (row false first done (fuel + 1)).run p =
      (row false first (.one :: done) fuel).run { p with rest := ts } := by
  rw [row, run_peek?_bind, hp, List.head?_cons]
  obtain ⟨c, rfl, hc⟩ | ⟨c, rfl, hc⟩ := Token.cases_of_atom ht
  · simp only [rowChars, List.mem_cons, List.not_mem_nil, or_false, not_or] at hc
    obtain ⟨_, _, _, _, _, _, _, _, _, _⟩ := hc
    simp only
    rw [run_advance_bind, hp]
    rfl
  · dsimp only
    rw [run_advance_bind, hp, escapedPart_symbol hc, pure_bind]
    rfl

theorem row_place {c : Char} (hp : p.rest = .plain c :: ts) (hc : c = '^' ∨ c = '$') :
    (row false first done (fuel + 1)).run p =
      (row false first (.place :: done) fuel).run { p with rest := ts } := by
  rw [row, run_peek?_bind, hp, List.head?_cons]
  rcases hc with rfl | rfl
  · exact run_advance_bind.trans (by rw [hp]; rfl)
  · exact run_advance_bind.trans (by rw [hp]; rfl)

theorem run_accept_bind {c : Char} {k : Bool → Reading α} (h : p.rest.head? ≠ some (.plain c)) :
    (accept c >>= k).run p = (k false).run p := by
  apply run_bind_of_ok
  rw [accept, run_peek?_bind, if_neg (by simpa using h)]
  rfl

/-- A repetition without a mark behind it that says how it goes on. -/
theorem run_repeatLast {w : Width} {least : Nat} {most : Option Nat}
    (hlazy : p.rest.head? ≠ some (.plain '?')) (hpossessive : p.rest.head? ≠ some (.plain '+')) :
    (repeatLast least most (⟨.matcher, w⟩ :: done)).run p =
      .ok (⟨.repeated, w.times least most⟩ :: done, { p with repeats := true }) :=
  (run_accept_bind hlazy).trans (run_accept_bind hpossessive)

theorem row_star (hp : p.rest = .plain '*' :: ts) (hlazy : ts.head? ≠ some (.plain '?'))
    (hpossessive : ts.head? ≠ some (.plain '+')) :
    (row false first (.one :: done) (fuel + 1)).run p =
      (row false first (⟨.repeated, Width.one.times 0 none⟩ :: done) fuel).run
        { p with rest := ts, repeats := true } := by
  rw [row, run_peek?_bind, hp, List.head?_cons]
  refine run_advance_bind.trans ?_
  rw [hp]
  exact run_bind_of_ok (run_repeatLast hlazy hpossessive)

theorem head?_ne_of_pieces? {c : Char} {pieces : List Piece}
    (h : pieces? (ts.map Token.sign) = some pieces)
    (hc : Sign.plain (.char c) = .other (.char c)) : ts.head? ≠ some (.plain c) := by
  intro hhead
  obtain ⟨ts, rfl⟩ := List.head?_eq_some_iff.mp hhead
  rw [List.map_cons, Token.sign, hc] at h
  cases h

/-- What is left of a simple pattern is read to its end. -/
theorem exists_row {ss : List Sign} {pieces : List Piece} (h : pieces? ss = some pieces)
    (hss : ts.map Token.sign = ss) (hp : p.rest = ts) (n : Nat) :
    ∃ w r, (row false first done (ts.length + n + 1)).run p =
      .ok (w, { p with rest := [], repeats := r }) := by
  fun_induction pieces? ss generalizing ts p done pieces with
  | case1 =>
    cases List.map_eq_nil_iff.mp hss
    exact ⟨rowWidth done, p.repeats, by rw [row_end hp, ← hp]⟩
  | case2 a rest ih =>
    obtain ⟨t, ts, rfl, ht, hts⟩ := List.map_eq_cons_iff.mp hss
    obtain ⟨star, ts, rfl, hstar, hrest⟩ := List.map_eq_cons_iff.mp hts
    obtain ⟨_, hpieces, rfl⟩ := Option.map_eq_some_iff.mp h
    obtain rfl : star = .plain '*' := Token.eq_plain (by rw [hstar]; rfl)
    have hnext := hrest.symm ▸ hpieces
    rw [row_atom hp ht, List.length_cons, Nat.add_right_comm,
      row_star rfl (head?_ne_of_pieces? hnext rfl) (head?_ne_of_pieces? hnext rfl),
      List.length_cons, Nat.add_right_comm]
    exact ih hpieces hrest rfl
  | case3 a rest hnot ih =>
    obtain ⟨t, ts, rfl, ht, hrest⟩ := List.map_eq_cons_iff.mp hss
    obtain ⟨_, hpieces, rfl⟩ := Option.map_eq_some_iff.mp h
    rw [row_atom hp ht, List.length_cons, Nat.add_right_comm]
    exact ih hpieces hrest rfl
  | case4 rest ih =>
    obtain ⟨t, ts, rfl, ht, hrest⟩ := List.map_eq_cons_iff.mp hss
    obtain ⟨_, hpieces, rfl⟩ := Option.map_eq_some_iff.mp h
    obtain rfl : t = .plain '^' := Token.eq_plain (by rw [ht]; rfl)
    rw [row_place hp (.inl rfl), List.length_cons, Nat.add_right_comm]
    exact ih hpieces hrest rfl
  | case5 rest ih =>
    obtain ⟨t, ts, rfl, ht, hrest⟩ := List.map_eq_cons_iff.mp hss
    obtain ⟨_, hpieces, rfl⟩ := Option.map_eq_some_iff.mp h
    obtain rfl : t = .plain '$' := Token.eq_plain (by rw [ht]; rfl)
    rw [row_place hp (.inr rfl), List.length_cons, Nat.add_right_comm]
    exact ih hpieces hrest rfl
  | case6 => cases h
  | case7 => cases h

/-! ## Sources -/

theorem other_not_mem_of_pieces? {ss : List Sign} {pieces : List Piece}
    (h : pieces? ss = some pieces) (q : CodePoint) : .other q ∉ ss := by
  fun_induction pieces? ss generalizing pieces with
  | case1 => exact List.not_mem_nil
  | case2 _ _ ih | case3 _ _ _ ih | case4 _ ih | case5 _ ih =>
    obtain ⟨_, hrest, rfl⟩ := Option.map_eq_some_iff.mp h
    simpa using ih hrest
  | case6 => cases h
  | case7 => cases h

end Pattern

/-- Simple patterns follow the rules for sources. -/
theorem Regex.ofSource_of_pieces? {source : String} {pieces : List Pattern.Piece}
    (h : Pattern.pieces? (Pattern.signs (ofText source)) = some pieces) :
    Regex.ofSource source [] = .ok ⟨source, []⟩ := by
  rw [ofText, Pattern.signs_map_char] at h
  generalize hts : Pattern.tokens source.toList = ts at h
  have hlast : (ts.getLast? == some Pattern.Token.backslash) = false := by
    refine beq_eq_false_iff_ne.mpr fun hlast => ?_
    exact Pattern.other_not_mem_of_pieces? h (.char '\\')
      (List.mem_map.mpr ⟨_, List.mem_of_getLast? hlast, rfl⟩)
  let start : Pattern.Progress := .start ts []
  obtain ⟨w, r, hrow⟩ : ∃ w r,
      (Pattern.row false true [] (ts.length + (4 * ts.length + 3) + 1)).run start =
        .ok (w, { start with rest := [], repeats := r }) :=
    Pattern.exists_row h rfl rfl _
  have hfuel : 5 * (ts.length + 1) = ts.length + (4 * ts.length + 3) + 1 + 1 := by omega
  have halternatives : (Pattern.alternatives false true (5 * (ts.length + 1))).run start =
      .ok (w, { start with rest := [], repeats := r }) := by
    rw [hfuel, Pattern.alternatives, Pattern.run_bind_of_ok hrow,
      Pattern.run_accept_bind (by simp)]
    rfl
  have hverbose : ([] : List PatternFlag).contains .verbose = false := rfl
  simp only [ofSource, hts, hverbose]
  rw [halternatives]
  simp [hlast, Pattern.Progress.isComplete, Pattern.Progress.start, start, bind, Except.bind]

end DocQuery
