-- SUMMARY: The patterns of text operators take a text literally, and which texts they are found in.
import DocQuery.Constraint
import DocQuery.Proofs.Json.Data
import DocQuery.Proofs.Pattern.Rules

/-!
# Literal patterns

The pattern of a text operator is the text of the operator around the escaped text of the caller.
Every character that would be read otherwise is escaped, and behind a backslash it stands for
itself; so whatever the caller writes is read as a row of characters, and cannot reach into the
text of the operator around it.
-/

namespace DocQuery

open Text (CodePoint)
open Text.CodePoint (ofText)
open Json (ofPoints_ofText points?_ofPoints)

namespace Pattern

/-! ## Escaped texts -/

/-- The signs of a row of code points that all stand for themselves. -/
def literals (ps : List CodePoint) : List Sign :=
  ps.map fun p => .atom (.literal p)

/-- Takes away each backslash that has something behind it. -/
def unescape : List CodePoint → List CodePoint
  | [] => []
  | .char '\\' :: p :: rest => p :: unescape rest
  | p :: rest => p :: unescape rest

theorem escaped_of_special {c : Char} (h : c ∈ specialChars) :
    Sign.escaped (.char c) = .atom (.literal (.char c)) := by
  have hall : specialChars.all (fun d => !d.isAlphanum) = true := by decide
  have hc : c.isAlphanum = false := Bool.not_eq_true' _ |>.mp (List.all_eq_true.mp hall c h)
  rw [Sign.escaped, hc]
  rfl

theorem plain_of_not_special {c : Char} (h : c ∉ specialChars) :
    Sign.plain (.char c) = .atom (.literal (.char c)) := by
  have hne : ∀ d ∈ specialChars, c ≠ d := by
    rintro d hd rfl
    exact h hd
  have hall : structureChars.all specialChars.contains = true := by decide
  have hstructure : ¬ structureChars.contains c = true := by
    intro hc
    exact h (List.contains_iff_mem.mp
      (List.all_eq_true.mp hall c (List.contains_iff_mem.mp hc)))
  rw [Sign.plain, if_neg hstructure]
  · exact hne '.' (by decide)
  · exact hne '^' (by decide)
  · exact hne '$' (by decide)
  · exact hne '*' (by decide)

/-- An escaped code point is read as itself, whatever stands behind it. -/
theorem signs_escapePoint (p : CodePoint) (rest : List CodePoint) :
    signs (escapePoint p ++ rest) = .atom (.literal p) :: signs rest := by
  cases p with
  | surrogate n => exact signs_plain fun h => nomatch h
  | char c =>
    by_cases hc : c ∈ specialChars
    · rw [escapePoint, escapeChar, if_pos (List.contains_iff_mem.mpr hc)]
      exact congrArg (· :: signs rest) (escaped_of_special hc)
    · have hback : CodePoint.char c ≠ .char '\\' := by
        intro h
        exact hc (CodePoint.char.inj h ▸ by decide)
      rw [escapePoint, escapeChar, if_neg (mt List.contains_iff_mem.mp hc),
        ← plain_of_not_special hc]
      exact signs_plain fun h => absurd h hback

theorem signs_escape (ps rest : List CodePoint) :
    signs (escape ps ++ rest) = literals ps ++ signs rest := by
  induction ps with
  | nil => rfl
  | cons p ps ih =>
    rw [escape, List.flatMap_cons, List.append_assoc, signs_escapePoint]
    exact congrArg _ ih

theorem signs_append {xs ys : List CodePoint} (h : .char '\\' ∉ xs) :
    signs (xs ++ ys) = signs xs ++ signs ys := by
  induction xs with
  | nil => rfl
  | cons x xs ih =>
    obtain ⟨hx, hxs⟩ := not_or.mp (mt List.mem_cons.mpr h)
    have hback : x ≠ .char '\\' := Ne.symm hx
    rw [List.cons_append, signs_plain fun e => absurd e hback,
      signs_plain fun e => absurd e hback, ih hxs, List.cons_append]

theorem Sign.eq_of_plain {p q : CodePoint} (h : plain p = .atom (.literal q)) : p = q := by
  unfold plain at h
  split at h
  · cases h
  · cases h
  · cases h
  · cases h
  · split at h
    · cases h
    · cases h
      rfl
  · cases h
    rfl

theorem Sign.eq_of_escaped {p q : CodePoint} (h : escaped p = .atom (.literal q)) : p = q := by
  cases p with
  | surrogate n =>
    cases h
    rfl
  | char c =>
    rw [escaped] at h
    split at h
    · cases h
    · cases h
      rfl

/-- A body that is read as a row of characters has no more than backslashes between them. -/
theorem unescape_of_signs {body ps : List CodePoint} (h : signs body = literals ps) :
    unescape body = ps := by
  fun_induction signs body generalizing ps with
  | case1 => exact (List.map_eq_nil_iff.mp h.symm).symm
  | case2 p rest ih =>
    obtain ⟨q, qs, rfl, hq, hqs⟩ := List.map_eq_cons_iff.mp h.symm
    rw [unescape, ih hqs.symm, Sign.eq_of_escaped hq.symm]
  | case3 p rest hescape ih =>
    obtain ⟨q, qs, rfl, hq, hqs⟩ := List.map_eq_cons_iff.mp h.symm
    rw [unescape, ih hqs.symm, Sign.eq_of_plain hq.symm]
    exact hescape

theorem unescape_escape (ps : List CodePoint) : unescape (escape ps) = ps := by
  apply unescape_of_signs
  rw [← List.append_nil (escape ps), signs_escape, signs, List.append_nil]

/-! ## Escaped texts in a frame -/

/-- The pattern that has an escaped text between two given ones. -/
def framed (lead : String) (ps : List CodePoint) (trail : String) : List CodePoint :=
  ofText lead ++ escape ps ++ ofText trail

theorem signs_framed {lead : String} (h : .char '\\' ∉ ofText lead) (ps : List CodePoint)
    (trail : String) :
    signs (framed lead ps trail) = signs (ofText lead) ++ literals ps ++ signs (ofText trail) := by
  rw [framed, List.append_assoc, signs_append h, signs_escape, List.append_assoc]

theorem framed_inj {lead trail : String} {ps qs : List CodePoint} :
    framed lead ps trail = framed lead qs trail ↔ ps = qs := by
  constructor
  · intro h
    have hbody : escape ps = escape qs := List.append_cancel_left (List.append_cancel_right h)
    rw [← unescape_escape ps, hbody, unescape_escape]
  · rintro rfl
    rfl

theorem head?_literals_append (ps : List CodePoint) {ss : List Sign} (h : ss.head? ≠ some .star) :
    (literals ps ++ ss).head? ≠ some .star := by
  cases ps with
  | nil => exact h
  | cons p ps => exact fun e => nomatch Option.some.inj e

theorem pieces?_literals (ps : List CodePoint) :
    pieces? (literals ps) = some (ps.map .literal) := by
  induction ps with
  | nil => rfl
  | cons p ps ih =>
    have hend : [].head? ≠ some Sign.star := nofun
    have hstar := head?_literals_append ps hend
    rw [List.append_nil] at hstar
    exact (pieces?_atom hstar).trans (congrArg _ ih)

/-- The frame of a text operator, read by itself. -/
structure IsFrame (lead trail : String) (before after : List Piece) : Prop where
  lead_clear : .char '\\' ∉ ofText lead
  trail_clear : (signs (ofText trail)).head? ≠ some .star
  lead_pieces : pieces? (signs (ofText lead)) = some before
  trail_pieces : pieces? (signs (ofText trail)) = some after

section

variable {lead trail : String} {before after : List Piece} (h : IsFrame lead trail before after)
include h

/-- The frame keeps its sense around the escaped text. -/
theorem IsFrame.pieces? (ps : List CodePoint) :
    pieces? (signs (framed lead ps trail)) = some (before ++ (ps.map .literal ++ after)) := by
  have hback := pieces?_append h.trail_clear (pieces?_literals ps) h.trail_pieces
  rw [signs_framed h.lead_clear, List.append_assoc]
  exact pieces?_append (head?_literals_append ps h.trail_clear) h.lead_pieces hback

theorem IsFrame.search? (ps text : List CodePoint) :
    search? (framed lead ps trail) text =
      some (matchesIn (before ++ (ps.map .literal ++ after)) text) := by
  rw [Pattern.search?, h.pieces?, Option.map_some]

end

theorem search?_front (ps text : List CodePoint) :
    search? (framed "^" ps "") text = some (decide (ps <+: text)) := by
  have hframe : IsFrame "^" "" [.start] [] := ⟨by decide, by decide, rfl, rfl⟩
  rw [hframe.search?, List.append_nil, Option.some_inj, Bool.eq_iff_iff, decide_eq_true_iff]
  exact matchesIn_start

theorem search?_back (ps text : List CodePoint) :
    search? (framed "" ps "$") text =
      some (decide (ps <:+ text ∨ ps ++ [.char '\n'] <:+ text)) := by
  have hframe : IsFrame "" "$" [] [.finish] := ⟨by decide, by decide, rfl, rfl⟩
  rw [hframe.search?, List.nil_append, Option.some_inj, Bool.eq_iff_iff, decide_eq_true_iff]
  exact matchesIn_finish

/-- What `contains` finds when upper and lower case are told apart. -/
theorem search?_within (ps text : List CodePoint) :
    search? (framed ".*" ps ".*") text = some (decide (ps <:+: text)) := by
  have hframe : IsFrame ".*" ".*" [.many .any] [.many .any] := ⟨by decide, by decide, rfl, rfl⟩
  rw [hframe.search?, Option.some_inj, Bool.eq_iff_iff, decide_eq_true_iff]
  exact matchesIn_within

theorem framed_ofText (lead text trail : String) :
    ∃ source, framed lead (ofText text) trail = ofText source := by
  have hescape : ∀ cs : List Char, escape (cs.map .char) = (cs.flatMap escapeChar).map .char := by
    intro cs
    simp only [escape, List.flatMap_map, List.map_flatMap, escapePoint]
  refine ⟨lead ++ String.ofList (text.toList.flatMap escapeChar) ++ trail, ?_⟩
  simp only [framed, ofText, hescape, String.toList_append, String.toList_ofList, List.map_append]

/-! ## Texts with a line end behind them -/

theorem eq_of_cons_eq_concat {x p : CodePoint} {ps : List CodePoint} (h : x :: ps = ps ++ [p]) :
    ∀ q ∈ x :: ps, q = p := by
  induction ps generalizing x with
  | nil =>
    cases h
    simp
  | cons q ps ih =>
    obtain ⟨rfl, h⟩ := List.cons.inj h
    have hps := ih h
    exact List.forall_mem_cons.mpr ⟨hps x List.mem_cons_self, hps⟩

theorem suffix_concat_iff {ps : List CodePoint} {p : CodePoint} :
    ps <:+ ps ++ [p] ↔ ∀ q ∈ ps, q = p := by
  constructor
  · rintro ⟨front, h⟩
    have hlength : front.length = 1 := by
      have := congrArg List.length h
      simp only [List.length_append, List.length_singleton] at this
      omega
    obtain ⟨x, rfl⟩ := List.length_eq_one_iff.mp hlength
    intro q hq
    exact eq_of_cons_eq_concat h q (List.mem_cons_of_mem x hq)
  · intro h
    have hps := List.eq_replicate_of_mem h
    refine ⟨[p], ?_⟩
    rw [hps, List.singleton_append, ← List.replicate_succ, List.replicate_succ']

/-- A line end behind a text can be left out of account just for texts of line ends. -/
theorem suffix_or_concat_iff {ps : List CodePoint} {p : CodePoint} :
    (∀ text, ps <:+ text ∨ ps ++ [p] <:+ text ↔ ps <:+ text) ↔ ∀ q ∈ ps, q = p := by
  constructor
  · intro h
    exact suffix_concat_iff.mp ((h (ps ++ [p])).mp (.inr (List.suffix_refl _)))
  · intro h text
    exact or_iff_left_of_imp (suffix_concat_iff.mpr h).trans

end Pattern

namespace Constraint

/-! ## Text operators -/

/-- The text that a text operator has before and after the text of the caller. -/
def frame? : Operator → Option (String × String)
  | .contains => some (".*", ".*")
  | .startsWith => some ("^", "")
  | .endsWith => some ("", "$")
  | _ => none

/-- The options that stand beside the pattern of a text operator. -/
def searchOptions (op : Operator) : OperatorDoc :=
  if op = .contains then [("$options", .text "i")] else []

theorem operatorDoc_framed {op : Operator} {lead trail : String} {v : Value} {ps : List CodePoint}
    (hop : frame? op = some (lead, trail)) (hps : v.points? = some ps) :
    operatorDoc op v =
      if Pattern.maxLength < ps.length then
        .error (.unfit (.textTooLong ps.length Pattern.maxLength))
      else .ok (("$regex", .ofPoints (Pattern.framed lead ps trail)) :: searchOptions op) := by
  cases op with
  | contains | startsWith | endsWith =>
    cases hop
    simp [operatorDoc, comparison?, membership?, dateComparison?, textDoc, hps, searchOptions,
      literalDoc, Pattern.framed]
  | _ => cases hop

/-- The pattern that a constraint compiles to. -/
def pattern? (c : Constraint) : Option Value :=
  match c.compile with
  | .ok (_, doc) => Assoc.find? "$regex" doc
  | .error _ => none

/-- A search for the pattern that a constraint compiles to succeeds in a text. None when there is
    no such pattern, or options beside it. -/
def search? (c : Constraint) (text : List CodePoint) : Option Bool :=
  match c.compile with
  | .ok (_, [("$regex", pattern)]) => pattern.points?.bind (Pattern.search? · text)
  | _ => none

section

variable {c : Constraint} {lead trail : String} {ps : List CodePoint}
  (hop : frame? c.operator = some (lead, trail)) (hps : c.value.points? = some ps)
include hop hps

theorem compile_framed (hlen : ps.length ≤ Pattern.maxLength) :
    c.compile = .ok (c.wireField,
      ("$regex", .ofPoints (Pattern.framed lead ps trail)) :: searchOptions c.operator) := by
  rw [compile, operatorDoc_framed hop hps, if_neg (Nat.not_lt.mpr hlen)]

theorem compile_tooLong (hlen : Pattern.maxLength < ps.length) :
    c.compile = .error (.conversion (.textTooLong ps.length Pattern.maxLength)
      (.text c.field) (.text c.operator.name)) := by
  rw [compile, operatorDoc_framed hop hps, if_pos hlen]
  rfl

theorem pattern?_framed (hlen : ps.length ≤ Pattern.maxLength) :
    c.pattern? = some (.ofPoints (Pattern.framed lead ps trail)) := by
  rw [pattern?, compile_framed hop hps hlen]
  rfl

theorem search?_framed (hlen : ps.length ≤ Pattern.maxLength) (hplain : c.operator ≠ .contains)
    (text : List CodePoint) :
    c.search? text = Pattern.search? (Pattern.framed lead ps trail) text := by
  rw [search?, compile_framed hop hps hlen, searchOptions, if_neg hplain]
  exact congrArg (·.bind (Pattern.search? · text)) (points?_ofPoints _)

end

theorem exists_isFrame {op : Operator} {lead trail : String}
    (h : frame? op = some (lead, trail)) :
    ∃ before after, Pattern.IsFrame lead trail before after := by
  cases op with
  | contains | startsWith | endsWith =>
    cases h
    exact ⟨_, _, by decide, by decide, rfl, rfl⟩
  | _ => cases h

/-- The pattern of a text operator for a text without surrogates is one that the readers of
    sources take. -/
theorem ofSource_pattern? {c : Constraint} {lead trail text : String}
    (hop : frame? c.operator = some (lead, trail)) (htext : c.value.points? = some (ofText text))
    (hlen : (ofText text).length ≤ Pattern.maxLength) :
    ∃ source, c.pattern? = some (.text source) ∧
      Regex.ofSource source [] = .ok ⟨source, []⟩ := by
  obtain ⟨before, after, hframe⟩ := exists_isFrame hop
  obtain ⟨source, hsource⟩ := Pattern.framed_ofText lead text trail
  refine ⟨source, ?_, Regex.ofSource_of_pieces? (hsource ▸ hframe.pieces? (ofText text))⟩
  rw [pattern?_framed hop htext hlen, hsource, ofPoints_ofText]

/-- The pattern of a text operator is its frame around a body that is read as the characters of
    the text, and the frame keeps its sense around it. A text of more than 500 characters is
    refused, and different texts have different patterns. -/
theorem text_taken_literally {op : Operator} {lead trail : String}
    (hop : frame? op = some (lead, trail)) :
    (∀ (c : Constraint) (ps : List CodePoint), c.operator = op → c.value.points? = some ps →
      ps.length ≤ 500 → ∃ body,
        c.pattern? = some (.ofPoints (ofText lead ++ body ++ ofText trail)) ∧
        Pattern.signs body = Pattern.literals ps ∧
        Pattern.signs (ofText lead ++ body ++ ofText trail) =
          Pattern.signs (ofText lead) ++ Pattern.literals ps ++ Pattern.signs (ofText trail) ∧
        Pattern.unescape body = ps) ∧
    (∀ (c : Constraint) (ps : List CodePoint), c.operator = op → c.value.points? = some ps →
      500 < ps.length → c.compile = .error (.conversion (.textTooLong ps.length 500)
        (.text c.field) (.text c.operator.name))) ∧
    (∀ (c d : Constraint) (ps qs : List CodePoint), c.operator = op → d.operator = op →
      c.value.points? = some ps → d.value.points? = some qs → ps.length ≤ 500 →
      qs.length ≤ 500 → c.pattern? = d.pattern? → ps = qs) := by
  refine ⟨?_, ?_, ?_⟩
  · rintro c ps rfl hps hlen
    obtain ⟨_, _, hframe⟩ := exists_isFrame hop
    have hbody := Pattern.signs_escape ps []
    rw [List.append_nil, Pattern.signs, List.append_nil] at hbody
    exact ⟨Pattern.escape ps, pattern?_framed hop hps hlen, hbody,
      Pattern.signs_framed hframe.lead_clear ps trail, Pattern.unescape_escape ps⟩
  · rintro c ps rfl hps hlen
    exact compile_tooLong hop hps hlen
  · rintro c d ps qs rfl hd hps hqs hps_len hqs_len h
    rw [pattern?_framed hop hps hps_len, pattern?_framed (hd ▸ hop) hqs hqs_len] at h
    have hpoints := congrArg Value.points? (Option.some.inj h)
    rw [points?_ofPoints, points?_ofPoints] at hpoints
    exact Pattern.framed_inj.mp (Option.some.inj hpoints)

/-- A backslash at the end of a text leaves the frame as it is. -/
theorem text_taken_literally_backslash :
    (∃ body,
      (Constraint.mk "title" .contains (.text "a.b\\")).pattern? =
        some (.ofPoints (ofText ".*" ++ body ++ ofText ".*")) ∧
      Pattern.signs body = Pattern.literals (ofText "a.b\\") ∧
      Pattern.signs (ofText ".*" ++ body ++ ofText ".*") =
        [.atom .any, .star] ++ Pattern.literals (ofText "a.b\\") ++ [.atom .any, .star] ∧
      Pattern.unescape body = ofText "a.b\\") ∧
    (Constraint.mk "title" .endsWith (.text (String.ofList (List.replicate 501 'a')))).compile =
      .error (.conversion (.textTooLong 501 500) (.text "title") (.text "ends_with")) ∧
    (Constraint.mk "title" .startsWith (.text "a.b")).pattern? ≠
      (Constraint.mk "title" .startsWith (.text "a-b")).pattern? := by
  have hcontains : frame? .contains = some (".*", ".*") := rfl
  have hstarts : frame? .startsWith = some ("^", "") := rfl
  have hends : frame? .endsWith = some ("", "$") := rfl
  refine ⟨?_, ?_, ?_⟩
  · exact (text_taken_literally hcontains).1 _ _ rfl rfl (by decide)
  · have hlength : (ofText (String.ofList (List.replicate 501 'a'))).length = 501 := by
      rw [ofText, String.toList_ofList, List.length_map, List.length_replicate]
    have h := (text_taken_literally hends).2.1
      ⟨"title", .endsWith, .text (String.ofList (List.replicate 501 'a'))⟩ _ rfl rfl
      (by rw [hlength]; decide)
    rwa [hlength] at h
  · intro h
    have hsame := (text_taken_literally hstarts).2.2 _ _ _ _ rfl rfl rfl rfl
      (by decide) (by decide) h
    exact absurd hsame (by decide)

/-! ## Ends of texts -/

/-- The pattern of a text to start with is found in the texts that start with it. That of a text
    to end with is also found in the texts that end with it and a line end; so it is found in the
    texts that end with it alone just if it is a row of line ends. -/
theorem ends_found_iff {c : Constraint} {ps : List CodePoint} (hps : c.value.points? = some ps)
    (hlen : ps.length ≤ 500) :
    (c.operator = .startsWith → ∀ text, c.search? text = some (decide (ps <+: text))) ∧
    (c.operator = .endsWith →
      (∀ text, c.search? text =
        some (decide (ps <:+ text ∨ ps ++ [.char '\n'] <:+ text))) ∧
      ((∀ text, c.search? text = some (decide (ps <:+ text))) ↔ ∀ p ∈ ps, p = .char '\n')) := by
  constructor
  · intro hop text
    have hframe : frame? c.operator = some ("^", "") := by rw [hop]; rfl
    rw [search?_framed hframe hps hlen (by rw [hop]; decide), Pattern.search?_front]
  · intro hop
    have hframe : frame? c.operator = some ("", "$") := by rw [hop]; rfl
    have hsearch : ∀ text, c.search? text =
        some (decide (ps <:+ text ∨ ps ++ [.char '\n'] <:+ text)) := by
      intro text
      rw [search?_framed hframe hps hlen (by rw [hop]; decide), Pattern.search?_back]
    refine ⟨hsearch, ?_⟩
    rw [← Pattern.suffix_or_concat_iff]
    apply forall_congr'
    intro text
    rw [hsearch, Option.some_inj, decide_eq_decide]

theorem ends_found_iff_title :
    (∀ text, (Constraint.mk "title" .startsWith (.text "ha")).search? text =
      some (decide (ofText "ha" <+: text))) ∧
    (∀ text, (Constraint.mk "title" .endsWith (.text "ha")).search? text =
      some (decide (ofText "ha" <:+ text ∨ ofText "ha" ++ [.char '\n'] <:+ text))) ∧
    (∀ text, (Constraint.mk "title" .endsWith (.text "\n")).search? text =
      some (decide (ofText "\n" <:+ text))) := by
  have hend (v : String) (hlen : (ofText v).length ≤ 500) :=
    (ends_found_iff (c := ⟨"title", .endsWith, .text v⟩) rfl hlen).2 rfl
  exact ⟨(ends_found_iff rfl (by decide)).1 rfl, (hend "ha" (by decide)).1,
    (hend "\n" (by decide)).2.mpr (by decide)⟩

/-- A text that ends with a line end does not end with what stands before it. -/
theorem line_end_skipped :
    (Constraint.mk "title" .endsWith (.text "ha")).search? (ofText "ha\n") = some true ∧
      ¬ ofText "ha" <:+ ofText "ha\n" := by
  decide

end Constraint

end DocQuery
