-- SUMMARY: A sort ends with the items in order, those at one height as they stood.
import DocQuery.Proofs.Sorting.Merge
import DocQuery.Sorting

/-!
# Sorts

The runs of a row follow each other as the row does, each of them in order. Whichever
neighbours are merged first, what waits keeps the order of the row at each height, and in the
end one run is left. So the lengths that decide about the merges do not matter.
-/

namespace DocQuery.Sorting

variable {α : Type} {m : Type → Type} [Monad m]
variable {compares : α → α → m Bool} {less : α → α → Bool} {P : α → Prop}

/-! ## Runs -/

section Falling

variable {xs : List α}

/-- A run that falls, or one that rises, goes on doing so from each of its items. -/
theorem Orders.goes (ho : Orders compares less P) {a b c : α} (ha : P a) (hb : P b) (hc : P c)
    {falling : Bool} (hba : less b a = falling) (hcb : less c b = falling) :
    less c a = falling := by
  cases falling with
  | true => exact ho.trans hc hb ha hcb hba
  | false => exact ho.le_trans ha hb hc hba hcb

/-- Turning a row around that falls strictly moves no item past one at its height. -/
theorem Keeps.of_falling (ho : Orders compares less P) (hP : ∀ x ∈ xs, P x)
    (h : xs.Pairwise fun a b => less b a = true) : Keeps less P xs xs.reverse := by
  induction xs with
  | nil => exact .refl []
  | cons x xs ih =>
    obtain ⟨hx, hxs⟩ := List.forall_mem_cons.mp hP
    obtain ⟨hbelow, hfalls⟩ := List.pairwise_cons.mp h
    have hexchanged : Keeps less P ([x] ++ xs) (xs ++ [x]) :=
      .exchange ho (by simpa using hx) hxs (by simpa using hbelow)
    rw [List.reverse_cons]
    exact hexchanged.trans ((ih hxs hfalls).appendRight [x])

/-- A row that falls strictly is sorted by turning it around. -/
theorem Sorts.of_falling (ho : Orders compares less P) (hP : ∀ x ∈ xs, P x)
    (h : xs.Pairwise fun a b => less b a = true) : Sorts less P xs xs.reverse :=
  ⟨.of_falling ho hP h, List.pairwise_reverse.mpr
    (h.imp_of_mem fun ha hb hba => ho.asymm (hP _ hb) (hP _ ha) hba)⟩

end Falling

variable [LawfulMonad m]

/-- The item goes behind all items that it does not lie below. -/
theorem insert_sorts (ho : Orders compares less P) {x : α} {xs : List α}
    (hP : ∀ z ∈ xs ++ [x], P z) (h : Rises less xs) :
    ∃ r, insert compares x xs = pure r ∧ Sorts less P (xs ++ [x]) r := by
  obtain ⟨hxs, hx⟩ := List.forall_mem_append.mp hP
  have hx : P x := hx x (List.mem_singleton.mpr rfl)
  obtain ⟨n, hn, hsplits⟩ := halving_notAbove ho .rising hxs h hx
  obtain ⟨hpass, hfail⟩ := hsplits.notAbove
  refine ⟨xs.take n ++ x :: xs.drop n, by simp [insert, hn], ?_⟩
  have hback : Sorts less P (xs.drop n ++ []) (xs.drop n) := by
    rw [List.append_nil]
    exact Rises.sorts (h.sublist (List.drop_sublist n xs))
  have hmiddle : Sorts less P (xs.drop n ++ [x]) (x :: xs.drop n) :=
    hback.takeLeading ho [x]
      (List.forall_mem_append.mpr ⟨fun z hz => hxs z (List.mem_of_mem_drop hz), by simpa using hx⟩)
      (by simp [Rises]) (by simpa using hfail)
  have hwhole := hmiddle.takeLasting (xs.take n) (by rwa [List.take_append_drop])
    (fun a ha y hy => by rw [List.mem_singleton.mp hy]; exact hpass a ha)
  rwa [List.take_append_drop] at hwhole

theorem insertAll_sorts (ho : Orders compares less P) {run xs : List α}
    (hP : ∀ z ∈ run ++ xs, P z) (h : Rises less run) :
    ∃ r, insertAll compares run xs = pure r ∧ Sorts less P (run ++ xs) r := by
  induction xs generalizing run with
  | nil => exact ⟨run, rfl, by simpa using h.sorts⟩
  | cons x xs ih =>
    rw [List.append_cons] at hP
    obtain ⟨run', hrun', hinserted⟩ := insert_sorts ho
      (fun z hz => hP z (List.mem_append_left xs hz)) h
    have hkeeps : Keeps less P (run ++ [x] ++ xs) (run' ++ xs) := hinserted.keeps.appendRight xs
    obtain ⟨r, hr, hsorts⟩ := ih (hkeeps.forall_mem hP) hinserted.rises
    refine ⟨r, by simp [insertAll, hrun', hr], ?_⟩
    rw [List.append_cons]
    exact hkeeps.sorts hsorts

/-- As many items as are counted go on in one direction. -/
theorem exists_runLength (ho : Orders compares less P) (falling : Bool) {x : α} {xs : List α}
    (hP : ∀ z ∈ x :: xs, P z) :
    ∃ n, runLength compares falling x xs = pure n ∧ n ≤ xs.length ∧
      (x :: xs.take n).Pairwise fun a b => less b a = falling := by
  induction xs generalizing x with
  | nil => exact ⟨0, rfl, Nat.le_refl 0, List.pairwise_singleton ..⟩
  | cons y ys ih =>
    obtain ⟨hx, hrest⟩ := List.forall_mem_cons.mp hP
    have hy : P y := hrest y List.mem_cons_self
    by_cases hyx : less y x = falling
    · obtain ⟨n, hn, hle, hgoes⟩ := ih hrest
      refine ⟨n + 1, by simp [runLength, ho.answers hy hx, hyx, hn], Nat.succ_le_succ hle, ?_⟩
      refine List.pairwise_cons.mpr ⟨fun b hb => ?_, hgoes⟩
      rcases List.mem_cons.mp hb with rfl | hmem
      · exact hyx
      · exact ho.goes hx hy (hrest b (List.mem_cons_of_mem y (List.mem_of_mem_take hmem))) hyx
          ((List.pairwise_cons.mp hgoes).1 b hmem)
    · exact ⟨0, by simp [runLength, ho.answers hy hx, hyx], Nat.zero_le _,
        List.pairwise_singleton ..⟩

/-- The run is the front of the row, sorted, and has an item if the row has one. -/
structure IsRun (less : α → α → Bool) (P : α → Prop) (xs run : List α) : Prop where
  sorts : Sorts less P (xs.take run.length) run
  ne_nil : xs ≠ [] → run ≠ []

theorem firstRun_isRun (ho : Orders compares less P) {xs : List α} (hP : ∀ x ∈ xs, P x) :
    ∃ run, firstRun compares xs = pure run ∧ IsRun less P xs run := by
  match xs, hP with
  | [], _ => exact ⟨[], rfl, Rises.sorts List.Pairwise.nil, fun h => h⟩
  | [x], _ =>
    have hrises : Rises less [x] := List.pairwise_singleton ..
    exact ⟨[x], rfl, hrises.sorts, fun _ => List.cons_ne_nil x []⟩
  | x :: y :: ys, hP =>
    obtain ⟨hx, hrest⟩ := List.forall_mem_cons.mp hP
    have hy : P y := hrest y List.mem_cons_self
    obtain ⟨n, hn, hle, hgoes⟩ := exists_runLength ho (less y x) hrest
    have htake : (x :: y :: ys).take (x :: y :: ys.take n).length = x :: y :: ys.take n := by
      simp
    have hPrun : ∀ z ∈ x :: y :: ys.take n, P z := fun z hz => by
      rw [← htake] at hz
      exact hP z (List.mem_of_mem_take hz)
    have hpairs : (x :: y :: ys.take n).Pairwise fun a b => less b a = less y x := by
      refine List.pairwise_cons.mpr ⟨fun b hb => ?_, hgoes⟩
      rcases List.mem_cons.mp hb with rfl | hmem
      · rfl
      · exact ho.goes hx hy (hPrun b (List.mem_cons_of_mem x hb)) rfl
          ((List.pairwise_cons.mp hgoes).1 b hmem)
    refine ⟨if less y x then (x :: y :: ys.take n).reverse else x :: y :: ys.take n,
      by simp [firstRun, ho.answers hy hx, hn], ?_, ?_⟩
    · cases hyx : less y x with
      | true =>
        rw [if_pos rfl, List.length_reverse, htake]
        exact .of_falling ho hPrun (by rwa [hyx] at hpairs)
      | false =>
        rw [if_neg (by simp), htake]
        exact Rises.sorts (by rwa [hyx] at hpairs)
    · split <;> simp

theorem filledRun_isRun (ho : Orders compares less P) (least : Nat) {xs : List α}
    (hP : ∀ x ∈ xs, P x) :
    ∃ run, filledRun compares least xs = pure run ∧ IsRun less P xs run := by
  obtain ⟨first, hfirst, hisRun⟩ := firstRun_isRun ho hP
  let more := (xs.drop first.length).take (least - first.length)
  have hkeeps : Keeps less P (xs.take first.length ++ more) (first ++ more) :=
    hisRun.sorts.keeps.appendRight more
  have htaken : xs.take first.length ++ more = xs.take (first.length + more.length) := by
    rw [List.take_add]
    simp [more, List.take_eq_take_iff]
  rw [htaken] at hkeeps
  obtain ⟨run, hrun, hsorts⟩ := insertAll_sorts ho
    (hkeeps.forall_mem fun x hx => hP x (List.mem_of_mem_take hx)) hisRun.sorts.rises
  have hlength : run.length = first.length + more.length := by
    rw [hsorts.keeps.perm.length_eq, List.length_append]
  refine ⟨run, by simp [filledRun, hfirst, more, hrun], ?_, fun hne hnil => ?_⟩
  · rw [hlength]
    exact hkeeps.sorts hsorts
  · have hpos : 0 < first.length := List.length_pos_iff.mpr (hisRun.ne_nil hne)
    rw [hnil, List.length_nil] at hlength
    omega

/-- The runs follow each other as the row does, each of them in order. -/
theorem runsWithin_keeps (ho : Orders compares less P) (least fuel : Nat) {xs : List α}
    (hP : ∀ x ∈ xs, P x) (hfuel : xs.length ≤ fuel) :
    ∃ rs, runsWithin compares least fuel xs = pure rs ∧ (∀ r ∈ rs, Rises less r) ∧
      Keeps less P xs rs.flatten := by
  induction fuel generalizing xs with
  | zero =>
    obtain rfl := List.length_eq_zero_iff.mp (Nat.le_zero.mp hfuel)
    exact ⟨[], rfl, by simp, .refl []⟩
  | succ fuel ih =>
    match xs, hP, hfuel with
    | [], _, _ => exact ⟨[], rfl, by simp, .refl []⟩
    | x :: xs, hP, hfuel =>
      obtain ⟨run, hrun, hisRun⟩ := filledRun_isRun ho least hP
      have hpos : 0 < run.length :=
        List.length_pos_iff.mpr (hisRun.ne_nil (List.cons_ne_nil x xs))
      have hPrest : ∀ z ∈ (x :: xs).drop run.length, P z := fun z hz =>
        hP z (List.mem_of_mem_drop hz)
      obtain ⟨rest, hrest, hrises, hkeeps⟩ := ih hPrest
        (by rw [List.length_drop]; simp only [List.length_cons] at hfuel ⊢; omega)
      refine ⟨run :: rest, by simp [runsWithin, hrun, hrest],
        List.forall_mem_cons.mpr ⟨hisRun.sorts.rises, hrises⟩, ?_⟩
      have hwhole := hisRun.sorts.keeps.append hkeeps
      rwa [List.take_append_drop] at hwhole

/-! ## Merging what waits -/

/-- The items of all that waits, last run first. -/
def contents : List (Waiting α) → List α
  | [] => []
  | w :: ws => contents ws ++ w.items

/-- What waits is in order, run by run. -/
def EachRises (less : α → α → Bool) (ws : List (Waiting α)) : Prop :=
  ∀ w ∈ ws, Rises less w.items

theorem eachRises_cons {w : Waiting α} {ws : List (Waiting α)} :
    EachRises less (w :: ws) ↔ Rises less w.items ∧ EachRises less ws :=
  List.forall_mem_cons

theorem Waiting.merge_sorts (ho : Orders compares less P) (patience : Nat) {w behind : Waiting α}
    (hP : ∀ x ∈ w.items ++ behind.items, P x) (hw : Rises less w.items)
    (hbehind : Rises less behind.items) :
    ∃ w' p, w.merge compares patience behind = pure (w', p) ∧
      Sorts less P (w.items ++ behind.items) w'.items := by
  obtain ⟨r, p, hr, hsorts⟩ := mergeRuns_sorts ho patience hP hw hbehind
  exact ⟨{ w with items := r }, p, by simp [Waiting.merge, hr], hsorts⟩

/-- Neighbours that wait are merged wherever they stand. -/
theorem Waiting.merge_keeps (ho : Orders compares less P) (patience : Nat) {w behind : Waiting α}
    (front back : List α) (hP : ∀ x ∈ front ++ (w.items ++ behind.items) ++ back, P x)
    (hw : Rises less w.items) (hbehind : Rises less behind.items) :
    ∃ w' p, w.merge compares patience behind = pure (w', p) ∧ Rises less w'.items ∧
      Keeps less P (front ++ (w.items ++ behind.items) ++ back) (front ++ w'.items ++ back) := by
  obtain ⟨w', p, hmerged, hsorts⟩ := Waiting.merge_sorts ho patience
    (fun x hx => hP x (List.mem_append_left _ (List.mem_append_right _ hx))) hw hbehind
  exact ⟨w', p, hmerged, hsorts.rises, (hsorts.keeps.appendLeft front).appendRight back⟩

theorem settle_keeps (ho : Orders compares less P) (limit patience : Nat) {last : Waiting α}
    {ws : List (Waiting α)} (hP : ∀ x ∈ contents (last :: ws), P x)
    (h : EachRises less (last :: ws)) :
    ∃ ws' p, settle compares limit patience last ws = pure (ws', p) ∧ EachRises less ws' ∧
      Keeps less P (contents (last :: ws)) (contents ws') := by
  induction ws generalizing last patience with
  | nil => exact ⟨[last], patience, rfl, h, .refl _⟩
  | cons w ws ih =>
    by_cases hdeep : limit < last.depth
    · obtain ⟨hlast, hw, hws⟩ := by simpa [eachRises_cons] using h
      have hassoc : contents (last :: w :: ws) = contents ws ++ (w.items ++ last.items) ++ [] := by
        simp [contents]
      rw [hassoc] at hP ⊢
      obtain ⟨merged, p, hmerged, hrises, hkeeps⟩ :=
        Waiting.merge_keeps ho patience (contents ws) [] hP hw hlast
      rw [List.append_nil (contents ws ++ merged.items)] at hkeeps
      obtain ⟨ws', p', hws', hrises, hsettled⟩ := ih p (hkeeps.forall_mem hP)
        (eachRises_cons.mpr ⟨hrises, hws⟩)
      exact ⟨ws', p', by simp [settle, hdeep, hmerged, hws'], hrises, hkeeps.trans hsettled⟩
    · exact ⟨last :: w :: ws, patience, by simp [settle, hdeep], h, .refl _⟩

theorem collapse_sorts (ho : Orders compares less P) (patience : Nat) {last : Waiting α}
    {ws : List (Waiting α)} (hP : ∀ x ∈ contents (last :: ws), P x)
    (h : EachRises less (last :: ws)) :
    ∃ r, collapse compares patience last ws = pure r ∧
      Sorts less P (contents (last :: ws)) r := by
  induction hlength : ws.length generalizing last ws patience with
  | zero =>
    obtain rfl := List.length_eq_zero_iff.mp hlength
    exact ⟨last.items, by simp [collapse], (eachRises_cons.mp h).1.sorts⟩
  | succ n ih =>
    obtain _ | ⟨w, _ | ⟨w', ws⟩⟩ := ws
    · cases hlength
    · obtain ⟨hlast, hw⟩ := by simpa [eachRises_cons, EachRises] using h
      obtain ⟨merged, p, hmerged, hsorts⟩ := Waiting.merge_sorts ho patience hP hw hlast
      exact ⟨merged.items, by simp [collapse, hmerged], hsorts⟩
    · obtain ⟨hlast, hw, hw', hws⟩ := by simpa [eachRises_cons] using h
      rw [collapse]
      by_cases hshort : w'.items.length < last.items.length
      · have hassoc : contents (last :: w :: w' :: ws) =
            contents ws ++ (w'.items ++ w.items) ++ last.items := by simp [contents]
        rw [hassoc] at hP ⊢
        obtain ⟨merged, p, hmerged, hrises, hkeeps⟩ :=
          Waiting.merge_keeps ho patience (contents ws) last.items hP hw' hw
        have hmergedP : ∀ x ∈ contents (last :: merged :: ws), P x := hkeeps.forall_mem hP
        obtain ⟨r, hr, hcollapsed⟩ := ih p hmergedP
          (eachRises_cons.mpr ⟨hlast, eachRises_cons.mpr ⟨hrises, hws⟩⟩) (by simpa using hlength)
        exact ⟨r, by simp [hshort, hmerged, hr], hkeeps.sorts hcollapsed⟩
      · have hassoc : contents (last :: w :: w' :: ws) =
            contents (w' :: ws) ++ (w.items ++ last.items) ++ [] := by simp [contents]
        rw [hassoc] at hP ⊢
        obtain ⟨merged, p, hmerged, hrises, hkeeps⟩ :=
          Waiting.merge_keeps ho patience (contents (w' :: ws)) [] hP hw hlast
        rw [List.append_nil (contents (w' :: ws) ++ merged.items)] at hkeeps
        have hmergedP : ∀ x ∈ contents (merged :: w' :: ws), P x := hkeeps.forall_mem hP
        obtain ⟨r, hr, hcollapsed⟩ := ih p hmergedP
          (eachRises_cons.mpr ⟨hrises, eachRises_cons.mpr ⟨hw', hws⟩⟩) (by simpa using hlength)
        exact ⟨r, by simp [hshort, hmerged, hr], hkeeps.sorts hcollapsed⟩

theorem mergeAll_sorts (ho : Orders compares less P) (total patience : Nat)
    {ws : List (Waiting α)} {rs : List (List α)} (hP : ∀ x ∈ contents ws ++ rs.flatten, P x)
    (hws : EachRises less ws) (hrs : ∀ r ∈ rs, Rises less r) :
    ∃ r, mergeAll compares total patience ws rs = pure r ∧
      Sorts less P (contents ws ++ rs.flatten) r := by
  induction rs generalizing ws patience with
  | nil =>
    cases ws with
    | nil => exact ⟨[], rfl, Rises.sorts List.Pairwise.nil⟩
    | cons last ws =>
      rw [List.flatten_nil, List.append_nil] at hP ⊢
      exact collapse_sorts ho patience hP hws
  | cons run rs ih =>
    obtain ⟨hrun, hrs⟩ := List.forall_mem_cons.mp hrs
    cases ws with
    | nil =>
      have hfirst : ∀ x ∈ contents [(⟨run, 0, 0⟩ : Waiting α)] ++ rs.flatten, P x := hP
      exact ih patience hfirst (eachRises_cons.mpr ⟨hrun, hws⟩) hrs
    | cons last ws =>
      obtain ⟨waiting, p, hwaiting, hrises, hkeeps⟩ := settle_keeps ho
        (last.after total run).depth patience
        (fun x hx => hP x (List.mem_append_left _ hx)) hws
      have hassoc : contents (last.after total run :: waiting) ++ rs.flatten =
          contents waiting ++ (run :: rs).flatten := List.append_assoc ..
      have hsettled : Keeps less P (contents (last :: ws) ++ (run :: rs).flatten)
          (contents (last.after total run :: waiting) ++ rs.flatten) :=
        hassoc ▸ hkeeps.appendRight _
      obtain ⟨r, hr, hsorts⟩ := ih p
        (hsettled.forall_mem hP) (eachRises_cons.mpr ⟨hrun, hrises⟩) hrs
      exact ⟨r, by simp [mergeAll, hwaiting, hr], hsettled.sorts hsorts⟩

/-! ## Sorted listings -/

/-- A sort succeeds and gives the items in order, those at one height as they stood. -/
theorem sortM_sorts (ho : Orders compares less P) {xs : List α} (hP : ∀ x ∈ xs, P x) :
    ∃ ys, sortM compares xs = pure ys ∧ Sorts less P xs ys := by
  obtain ⟨rs, hrs, hrises, hkeeps⟩ :=
    runsWithin_keeps ho (leastRun xs.length 0) xs.length hP (Nat.le_refl _)
  have hruns : ∀ x ∈ contents ([] : List (Waiting α)) ++ rs.flatten, P x := hkeeps.forall_mem hP
  obtain ⟨ys, hys, hsorts⟩ :=
    mergeAll_sorts ho xs.length payingLeap hruns (List.forall_mem_nil _) hrises
  exact ⟨ys, by simp [sortM, runs, hrs, hys], hkeeps.sorts hsorts⟩

theorem sort_sorts (ho : Orders (m := Id) (fun a b => pure (less a b)) less P) {xs : List α}
    (hP : ∀ x ∈ xs, P x) : Sorts less P xs (sort less xs) := by
  obtain ⟨ys, hys, hsorts⟩ := sortM_sorts ho hP
  rwa [sort, hys]

/-- The items in falling order, those at one height as they stood too. -/
theorem sortFalling_sorts (ho : Orders (m := Id) (fun a b => pure (less a b)) less P)
    {xs : List α} (hP : ∀ x ∈ xs, P x) :
    Sorts (fun a b => less b a) P xs (sortFalling less xs) := by
  have hreverse : ∀ x ∈ xs.reverse, P x := by simpa using hP
  have hsorts := (sort_sorts ho hreverse).reverse
  rwa [List.reverse_reverse] at hsorts

end DocQuery.Sorting
