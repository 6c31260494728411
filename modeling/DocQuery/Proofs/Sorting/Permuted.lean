-- SUMMARY: Whatever its comparison answers, a sort that ends has permuted the items.
import DocQuery.Proofs.Sorting

/-!
# Permuted items

A comparison may answer as it likes: where it lies in no order, the places of the items depend
on the comparisons that are made. But a sort only moves items. No search decides more than where
a row is cut, so none of them matters here, and when the comparison never fails to answer, what
comes out are the items that went in.
-/

namespace DocQuery.Sorting

variable {α : Type} {less : α → α → Option Bool}

/-! ## Runs -/

theorem insert_perm {x : α} {xs r : List α} (h : insert less x xs = some r) :
    r.Perm (x :: xs) := by
  obtain ⟨n, -, h⟩ := Option.bind_eq_some_iff.mp h
  obtain rfl := Option.some.inj h
  have hmoved : (xs.take n ++ x :: xs.drop n).Perm (x :: (xs.take n ++ xs.drop n)) :=
    List.perm_middle
  rwa [List.take_append_drop] at hmoved

theorem insertAll_perm {run xs r : List α} (h : insertAll less run xs = some r) :
    r.Perm (run ++ xs) := by
  induction xs generalizing run with
  | nil =>
    obtain rfl := Option.some.inj h
    rw [List.append_nil]
  | cons x xs ih =>
    obtain ⟨run', hrun', h⟩ := Option.bind_eq_some_iff.mp h
    calc r
      _ |>.Perm (run' ++ xs) := ih h
      _ |>.Perm (x :: run ++ xs) := (insert_perm hrun').append_right xs
      _ |>.Perm (run ++ x :: xs) := List.perm_middle.symm

/-- The run has the items from the front of the row, and at least one if the row has any. -/
structure TakesFront (xs run : List α) : Prop where
  perm : run.Perm (xs.take run.length)
  ne_nil : xs ≠ [] → run ≠ []

theorem takesFront_firstRun {xs run : List α} (h : firstRun less xs = some run) :
    TakesFront xs run := by
  match xs, h with
  | [], h =>
    obtain rfl := Option.some.inj h
    exact ⟨.refl [], fun h => h⟩
  | [x], h =>
    obtain rfl := Option.some.inj h
    exact ⟨.refl [x], fun _ => List.cons_ne_nil x []⟩
  | x :: y :: ys, h =>
    obtain ⟨falling, -, h⟩ := Option.bind_eq_some_iff.mp h
    obtain ⟨n, -, h⟩ := Option.bind_eq_some_iff.mp h
    obtain rfl := Option.some.inj h
    have htake : (x :: y :: ys).take (x :: y :: ys.take n).length = x :: y :: ys.take n := by
      simp
    cases falling with
    | true =>
      refine ⟨?_, fun _ => by simp⟩
      rw [if_pos rfl, List.length_reverse, htake]
      exact List.reverse_perm _
    | false =>
      refine ⟨?_, fun _ => by simp⟩
      rw [if_neg Bool.false_ne_true, htake]

theorem takesFront_filledRun {least : Nat} {xs run : List α}
    (h : filledRun less least xs = some run) : TakesFront xs run := by
  obtain ⟨first, hfirst, h⟩ := Option.bind_eq_some_iff.mp h
  have hfront := takesFront_firstRun hfirst
  have hfilled := insertAll_perm h
  have hlength := hfilled.length_eq
  have htaken : xs.take first.length ++ (xs.drop first.length).take (least - first.length) =
      xs.take run.length := by
    rw [hlength, List.length_append, List.take_add]
    simp [List.take_eq_take_iff]
  refine ⟨?_, fun hne hnil => ?_⟩
  · rw [← htaken]
    exact hfilled.trans (hfront.perm.append_right _)
  · have hpos := List.length_pos_iff.mpr (hfront.ne_nil hne)
    rw [hnil, List.length_nil, List.length_append] at hlength
    omega

theorem runsWithin_perm {least fuel : Nat} {xs : List α} {rs : List (List α)}
    (hfuel : xs.length ≤ fuel) (h : runsWithin less least fuel xs = some rs) :
    rs.flatten.Perm xs := by
  induction fuel generalizing xs rs with
  | zero =>
    obtain rfl := Option.some.inj h
    obtain rfl := List.length_eq_zero_iff.mp (Nat.le_zero.mp hfuel)
    exact .refl []
  | succ fuel ih =>
    cases xs with
    | nil =>
      obtain rfl := Option.some.inj h
      exact .refl []
    | cons x xs =>
      obtain ⟨run, hrun, h⟩ := Option.bind_eq_some_iff.mp h
      obtain ⟨rest, hrest, h⟩ := Option.bind_eq_some_iff.mp h
      obtain rfl := Option.some.inj h
      have hfront := takesFront_filledRun hrun
      have hpos := List.length_pos_iff.mpr (hfront.ne_nil (List.cons_ne_nil x xs))
      have hleft : ((x :: xs).drop run.length).length ≤ fuel := by
        rw [List.length_drop]
        simp only [List.length_cons] at hfuel ⊢
        omega
      have hwhole := hfront.perm.append (ih hleft hrest)
      rwa [List.take_append_drop] at hwhole

/-! ## Leaps -/

namespace Leapt

/-- All items of a merge, given or not. -/
def items (s : Leapt α) : List α :=
  s.given ++ (s.leading ++ s.lasting)

theorem takeLeading_perm (s : Leapt α) (n : Nat) : (s.takeLeading n).items.Perm s.items := by
  obtain ⟨given, leading, lasting, longest⟩ := s
  have hcut : leading.take n ++ leading.drop n = leading := List.take_append_drop n leading
  unfold takeLeading
  split
  · rename_i y ys x xs hdrop hlasting
    simp only at hdrop hlasting
    subst hlasting
    rw [hdrop] at hcut
    have hmoved : (x :: (y :: ys ++ xs)).Perm (y :: ys ++ x :: xs) := List.perm_middle.symm
    have hwhole := (hmoved.append_left (leading.take n)).append_left given
    rw [← List.append_assoc (leading.take n), hcut] at hwhole
    simpa [items] using hwhole
  · simp only [items, List.append_assoc]
    rw [← List.append_assoc (leading.take n), hcut]

theorem takeLasting_perm (s : Leapt α) (n : Nat) : (s.takeLasting n).items.Perm s.items := by
  obtain ⟨given, leading, lasting, longest⟩ := s
  have hcut : lasting.take n ++ lasting.drop n = lasting := List.take_append_drop n lasting
  have hmoved : (lasting.take n ++ (leading ++ lasting.drop n)).Perm (leading ++ lasting) := by
    rw [← List.append_assoc]
    refine (List.perm_append_comm.append_right _).trans ?_
    rw [List.append_assoc, hcut]
  unfold takeLasting
  split
  · rename_i y ys x x' xs hleading hdrop
    simp only at hleading hdrop
    subst hleading
    rw [hdrop] at hmoved
    simpa [items] using hmoved.append_left given
  · simpa [items] using hmoved.append_left given

variable {lie : Lie}

theorem leapLeading_perm {s s' : Leapt α} (h : leapLeading lie less s = some s') :
    s'.items.Perm s.items := by
  unfold leapLeading at h
  split at h
  · obtain ⟨n, -, h⟩ := Option.bind_eq_some_iff.mp h
    obtain rfl := Option.some.inj h
    exact takeLeading_perm s n
  · obtain rfl := Option.some.inj h
    exact .refl _

theorem leapLasting_perm {s s' : Leapt α} (h : leapLasting lie less s = some s') :
    s'.items.Perm s.items := by
  unfold leapLasting at h
  split at h
  · obtain ⟨n, -, h⟩ := Option.bind_eq_some_iff.mp h
    obtain rfl := Option.some.inj h
    exact takeLasting_perm s n
  · obtain rfl := Option.some.inj h
    exact .refl _

theorem round_perm {leading lasting : List α} {s : Leapt α}
    (h : round lie less leading lasting = some s) : s.items.Perm (leading ++ lasting) := by
  unfold round at h
  cases lie with
  | rising =>
    obtain ⟨s', hfirst, hsecond⟩ := Option.bind_eq_some_iff.mp h
    exact (leapLeading_perm hsecond).trans (leapLasting_perm hfirst)
  | turned =>
    obtain ⟨s', hfirst, hsecond⟩ := Option.bind_eq_some_iff.mp h
    exact (leapLasting_perm hsecond).trans (leapLeading_perm hfirst)

end Leapt

/-! ## Merges -/

theorem mergeFrom_perm {lie : Lie} {pace : Pace} {patience fuel : Nat}
    {leading lasting r : List α} {p : Nat}
    (h : mergeFrom lie less pace patience fuel leading lasting = some (r, p)) :
    r.Perm (leading ++ lasting) := by
  induction fuel generalizing pace patience leading lasting r p with
  | zero =>
    cases h
    exact .refl _
  | succ fuel ih =>
    match leading, lasting, h with
    | [], _, h =>
      cases h
      exact .refl _
    | _ :: _, [], h =>
      cases h
      exact .refl _
    | _ :: _, [_], h =>
      cases h
      exact .refl _
    | y :: ys, x :: x' :: xs, h =>
      cases pace with
      | steps leadingCount lastingCount =>
        obtain ⟨below, -, h⟩ := Option.bind_eq_some_iff.mp h
        cases below with
        | true =>
          obtain ⟨⟨rest, p⟩, hrest, h⟩ := Option.bind_eq_some_iff.mp h
          cases h
          exact (ih hrest).cons y
        | false =>
          obtain ⟨⟨rest, p⟩, hrest, h⟩ := Option.bind_eq_some_iff.mp h
          cases h
          exact ((ih hrest).cons x).trans List.perm_middle.symm
      | leaps =>
        obtain ⟨s, hs, h⟩ := Option.bind_eq_some_iff.mp h
        have hround := Leapt.round_perm hs
        split at h
        · cases h
          rwa [List.append_assoc]
        · split at h
          all_goals
            obtain ⟨⟨rest, p⟩, hrest, h⟩ := Option.bind_eq_some_iff.mp h
            cases h
            exact ((ih hrest).append_left s.given).trans hround

theorem mergeRows_perm {lie : Lie} {patience : Nat} {leading lasting r : List α} {p : Nat}
    (h : mergeRows lie less patience leading lasting = some (r, p)) :
    r.Perm (leading ++ lasting) := by
  cases leading with
  | nil =>
    cases h
    exact .refl _
  | cons y ys =>
    obtain ⟨⟨rest, p⟩, hrest, h⟩ := Option.bind_eq_some_iff.mp h
    cases h
    exact (mergeFrom_perm hrest).cons y

/-- What was cut off at both ends stays where it is around a merge of the rest. -/
theorem perm_around {xs ys merged : List α} {i j : Nat}
    (h : merged.Perm (ys.take j ++ xs.drop i)) :
    (xs.take i ++ merged ++ ys.drop j).Perm (xs ++ ys) :=
  calc xs.take i ++ merged ++ ys.drop j
    _ |>.Perm (xs.take i ++ (xs.drop i ++ ys.take j) ++ ys.drop j) :=
      ((h.trans List.perm_append_comm).append_left _).append_right _
    _ = xs ++ ys := by
      rw [← List.append_assoc, List.take_append_drop, List.append_assoc, List.take_append_drop]

theorem mergeRuns_perm {patience : Nat} {xs ys r : List α} {p : Nat}
    (h : mergeRuns less patience xs ys = some (r, p)) : r.Perm (xs ++ ys) := by
  unfold mergeRuns at h
  split at h
  · obtain ⟨early, -, h⟩ := Option.bind_eq_some_iff.mp h
    split at h
    · obtain ⟨late, -, h⟩ := Option.bind_eq_some_iff.mp h
      simp only at h
      split at h
      · obtain ⟨⟨merged, p⟩, hmerged, h⟩ := Option.bind_eq_some_iff.mp h
        cases h
        exact perm_around (mergeRows_perm hmerged)
      · obtain ⟨⟨falling, p⟩, hfalling, h⟩ := Option.bind_eq_some_iff.mp h
        cases h
        refine perm_around ((List.reverse_perm falling).trans ((mergeRows_perm hfalling).trans ?_))
        exact List.perm_append_comm.trans
          ((List.reverse_perm _).append (List.reverse_perm _))
    · cases h
      exact .refl _
  · rename_i hhead
    cases h
    cases ys with
    | nil => rw [List.append_nil]
    | cons y ys => exact absurd rfl (hhead y)

/-! ## Sorts -/

theorem Waiting.merge_perm {patience p : Nat} {w behind w' : Waiting α}
    (h : w.merge less patience behind = some (w', p)) :
    w'.items.Perm (w.items ++ behind.items) := by
  obtain ⟨⟨items, p⟩, hmerged, h⟩ := Option.bind_eq_some_iff.mp h
  cases h
  exact mergeRuns_perm hmerged

theorem settle_perm {limit patience p : Nat} {last : Waiting α} {ws ws' : List (Waiting α)}
    (h : settle less limit patience last ws = some (ws', p)) :
    (contents ws').Perm (contents (last :: ws)) := by
  induction ws generalizing last patience with
  | nil =>
    cases h
    exact .refl _
  | cons w ws ih =>
    rw [settle] at h
    split at h
    · obtain ⟨⟨merged, p'⟩, hmerged, h⟩ := Option.bind_eq_some_iff.mp h
      refine (ih h).trans ?_
      rw [contents, contents, contents, List.append_assoc]
      exact (Waiting.merge_perm hmerged).append_left _
    · cases h
      exact .refl _

theorem collapse_perm {patience : Nat} {last : Waiting α} {ws : List (Waiting α)} {r : List α}
    (h : collapse less patience last ws = some r) : r.Perm (contents (last :: ws)) := by
  induction hlength : ws.length generalizing last ws patience with
  | zero =>
    obtain rfl := List.length_eq_zero_iff.mp hlength
    rw [collapse] at h
    cases h
    exact .refl _
  | succ n ih =>
    rw [collapse.eq_def] at h
    obtain _ | ⟨w, _ | ⟨w', ws⟩⟩ := ws
    · cases hlength
    · obtain ⟨⟨merged, p⟩, hmerged, h⟩ := Option.bind_eq_some_iff.mp h
      cases h
      exact Waiting.merge_perm hmerged
    · simp only at h
      split at h
      · obtain ⟨⟨merged, p⟩, hmerged, h⟩ := Option.bind_eq_some_iff.mp h
        refine (ih h (by simpa using hlength)).trans ?_
        simp only [contents, List.append_assoc]
        rw [← List.append_assoc w'.items]
        exact ((Waiting.merge_perm hmerged).append_right last.items).append_left _
      · obtain ⟨⟨merged, p⟩, hmerged, h⟩ := Option.bind_eq_some_iff.mp h
        refine (ih h (by simpa using hlength)).trans ?_
        simp only [contents, List.append_assoc]
        exact ((Waiting.merge_perm hmerged).append_left w'.items).append_left _

theorem mergeAll_perm {total patience : Nat} {ws : List (Waiting α)} {rs : List (List α)}
    {r : List α} (h : mergeAll less total patience ws rs = some r) :
    r.Perm (contents ws ++ rs.flatten) := by
  induction rs generalizing ws patience with
  | nil =>
    cases ws with
    | nil =>
      cases h
      exact .refl _
    | cons last ws =>
      rw [List.flatten_nil, List.append_nil]
      exact collapse_perm h
  | cons run rs ih =>
    cases ws with
    | nil => exact ih h
    | cons last ws =>
      obtain ⟨⟨waiting, p⟩, hsettled, h⟩ := Option.bind_eq_some_iff.mp h
      refine (ih h).trans ?_
      rw [List.flatten_cons, ← List.append_assoc]
      exact ((settle_perm hsettled).append_right _).append_right _

/-- A sort that ends has permuted the items. -/
theorem sortM_perm {xs r : List α} (h : sortM less xs = some r) : r.Perm xs := by
  obtain ⟨rs, hrs, h⟩ := Option.bind_eq_some_iff.mp h
  exact (mergeAll_perm h).trans (runsWithin_perm (Nat.le_refl _) hrs)

end DocQuery.Sorting
