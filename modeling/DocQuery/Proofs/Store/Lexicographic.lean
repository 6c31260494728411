-- SUMMARY: A rendered sort is the lexicographic sort by its orderings, each with the last direction of its field.
import DocQuery.Proofs.Sorting.Kept
import DocQuery.Proofs.Store.Sorting
import DocQuery.Proofs.Value.SortKey

/-!
# Lexicographic sorts

Rows are in the lexicographic order of some columns when the first column that tells two of them
apart has them in its direction. A sort that is rendered for the store is a mapping from columns to
directions. The store sorts by one column after another, the least significant first, and this is
the lexicographic sort by the columns of the mapping.

A column that occurs again in a list of orderings decides nothing, since the rows that reach it are
alike in it. But in the mapping a column stands where it first occurs and has the direction with
which it last occurs. So the rendered sort is the declared one exactly where each column ends with
the direction that it begins with.
-/

namespace DocQuery.Store

open Selection (at? step?)
open Sorting (Keeps Orders Rises Sorts alike andThen)

/-! ## Lexicographic comparisons -/

/-- The first row has to stand above the second when rows are sorted by columns, the most
    significant first. -/
def lexAbove? : List (String × Direction) → Value → Value → Option Bool
  | [], _, _ => some false
  | c :: columns, a, b => do
    if ← above? c.1 (.int c.2.sign) a b then some true
    else if ← above? c.1 (.int c.2.sign) b a then some false
    else lexAbove? columns a b

/-- The first row stands above the second by a column. -/
def columnAbove (c : String × Direction) (a b : Value) : Bool :=
  above? c.1 (.int c.2.sign) a b == some true

/-- The first row stands above the second by columns, the most significant first. -/
def lexAbove : List (String × Direction) → Value → Value → Bool
  | [] => fun _ _ => false
  | c :: columns => andThen (columnAbove c) (lexAbove columns)

variable {columns : List (String × Direction)} {rows : List Value}

theorem IsOrder.orders {α : Type} {less? : α → α → Option Bool} {items : List α}
    (h : IsOrder less? items) : Orders less? (fun a b => less? a b == some true) (· ∈ items) where
  answers {a b} ha hb := by
    obtain ⟨verdict, hverdict⟩ := Option.ne_none_iff_exists'.mp (h.answers a ha b hb)
    rw [hverdict]
    cases verdict <;> rfl
  asymm {a b} ha hb hab := by
    simpa using h.asymm a ha b hb (by simpa using hab)
  between {a b c} ha hb hc hac := by
    simpa using h.between a ha b hb c hc (by simpa using hac)

/-- Rows that can be compared by each column can be compared by all of them. -/
theorem lexAbove_orders (h : ∀ c ∈ columns, AreComparable c.1 rows) :
    Orders (lexAbove? columns) (lexAbove columns) (· ∈ rows) := by
  induction columns with
  | nil => exact ⟨fun _ _ => rfl, fun _ _ => nofun, fun _ _ _ => nofun⟩
  | cons c columns ih =>
    obtain ⟨hhead, htail⟩ := List.forall_mem_cons.mp h
    have hcolumn : Orders (above? c.1 (.int c.2.sign)) (columnAbove c) (· ∈ rows) :=
      (hhead.isOrder c.2).orders
    refine hcolumn.andThen (ih htail) fun {a b} ha hb => ?_
    rw [lexAbove?, hcolumn.answers ha hb, hcolumn.answers hb ha, (ih htail).answers ha hb,
      Sorting.andThen]
    cases columnAbove c a b <;> cases columnAbove c b a <;> rfl

/-! ## Stable sorts -/

section Insertion

variable {α : Type} {above? : α → α → Option Bool} {above : α → α → Bool} {P : α → Prop}

/-- An item that came before the sorted ones is inserted above those at its height. -/
theorem insert?_sorts (ho : Orders above? above P) {a : α} {sorted : List α}
    (hP : ∀ x ∈ a :: sorted, P x) (hrises : Rises above sorted) :
    ∃ ys, insert? above? a sorted = some ys ∧ Sorts above P (a :: sorted) ys := by
  induction sorted with
  | nil => exact ⟨[a], rfl, Rises.sorts (List.pairwise_singleton _ _)⟩
  | cons b rest ih =>
    obtain ⟨ha, hsorted⟩ := List.forall_mem_cons.mp hP
    obtain ⟨hb, hrest⟩ := List.forall_mem_cons.mp hsorted
    obtain ⟨hhead, htail⟩ := List.pairwise_cons.mp hrises
    have hanswer : above? b a = some (above b a) := ho.answers hb ha
    cases hba : above b a with
    | true =>
      obtain ⟨ys, hys, hsorts⟩ := ih (List.forall_mem_cons.mpr ⟨ha, hrest⟩) htail
      have hexchanged : Keeps above P ([a] ++ [b]) ([b] ++ [a]) :=
        .exchange ho (by simpa using ha) (by simpa using hb) (by simpa using hba)
      refine ⟨b :: ys, ?_, (hexchanged.appendRight rest).trans (hsorts.keeps.appendLeft [b]),
        List.pairwise_cons.mpr ⟨fun c hc => ?_, hsorts.rises⟩⟩
      · simp [insert?, hanswer, hba, hys]
      · rcases List.mem_cons.mp (hsorts.keeps.perm.subset hc) with rfl | hc
        · exact ho.asymm hb ha hba
        · exact hhead c hc
    | false =>
      have hfront : ∀ c ∈ b :: rest, above c a = false :=
        List.forall_mem_cons.mpr ⟨hba, fun c hc => ho.le_trans ha hb (hrest c hc) hba (hhead c hc)⟩
      refine ⟨a :: b :: rest, ?_, Rises.sorts (List.pairwise_cons.mpr ⟨hfront, hrises⟩)⟩
      simp [insert?, hanswer, hba]

theorem sort?_sorts (ho : Orders above? above P) {items : List α} (hP : ∀ x ∈ items, P x) :
    ∃ sorted, sort? above? items = some sorted ∧ Sorts above P items sorted := by
  induction items with
  | nil => exact ⟨[], rfl, Rises.sorts .nil⟩
  | cons a items ih =>
    obtain ⟨ha, hitems⟩ := List.forall_mem_cons.mp hP
    obtain ⟨sorted, hsorted, hsorts⟩ := ih hitems
    obtain ⟨ys, hys, hinserted⟩ := insert?_sorts ho
      (List.forall_mem_cons.mpr ⟨ha, hsorts.forall_mem hitems⟩) hsorts.rises
    refine ⟨ys, ?_, (hsorts.keeps.appendLeft [a]).sorts hinserted⟩
    rw [sort?, hsorted]
    exact hys

end Insertion

theorem lexSort?_sorts (h : ∀ c ∈ columns, AreComparable c.1 rows) :
    ∃ sorted, sort? (lexAbove? columns) rows = some sorted ∧
      Sorts (lexAbove columns) (· ∈ rows) rows sorted :=
  sort?_sorts (lexAbove_orders h) fun _ hrow => hrow

/-- The store's sort by one column after another is the lexicographic sort. -/
theorem sortBy?_eq_lexSort? (h : ∀ c ∈ columns, AreComparable c.1 rows) :
    sortBy? ((Encoding.sortFields columns).map fun (k, v) => (.text k, v)) rows =
      sort? (lexAbove? columns) rows := by
  induction columns with
  | nil =>
    obtain ⟨sorted, hsorted, hsorts⟩ := lexSort?_sorts h
    have hrows : Rises (lexAbove []) rows := List.pairwise_iff_forall_sublist.mpr fun _ => rfl
    rw [hsorted, ← Sorts.unique (lexAbove_orders h) (fun _ hrow => hrow) hrows.sorts hsorts]
    rfl
  | cons c columns ih =>
    obtain ⟨hhead, htail⟩ := List.forall_mem_cons.mp h
    have hcolumn : Orders (above? c.1 (.int c.2.sign)) (columnAbove c) (· ∈ rows) :=
      (hhead.isOrder c.2).orders
    obtain ⟨before, hbefore, hbefores⟩ := lexSort?_sorts htail
    obtain ⟨after, hafter, hafters⟩ :=
      sort?_sorts hcolumn (hbefores.forall_mem fun _ hrow => hrow)
    obtain ⟨sorted, hsorted, hsorts⟩ := lexSort?_sorts h
    have hsame : after = sorted := Sorts.unique (lexAbove_orders h) (fun _ hrow => hrow)
      (hbefores.andThen hcolumn (fun _ hrow => hrow) hafters) hsorts
    rw [hsorted, ← hsame, ← hafter, Encoding.sortFields, List.map_cons, List.map_cons, sortBy?,
      ← Encoding.sortFields, ih htail, hbefore]
    rfl

/-! ## Columns that occur again -/

theorem lexAbove_append (columns columns' : List (String × Direction)) :
    lexAbove (columns ++ columns') = andThen (lexAbove columns) (lexAbove columns') := by
  induction columns with
  | nil => rfl
  | cons c columns ih => rw [List.cons_append, lexAbove, lexAbove, ih, Sorting.andThen_assoc]

/-- Two rows are alike in a column whatever its direction. -/
theorem alike_columnAbove (name : String) (d d' : Direction) :
    alike (columnAbove (name, d)) = alike (columnAbove (name, d')) := by
  have hflip : ∀ a b, columnAbove (name, .descending) a b = columnAbove (name, .ascending) b a := by
    intro a b
    rw [columnAbove, columnAbove, above?_ascending, above?_descending]
  funext a b
  cases d <;> cases d' <;> simp only [alike, hflip, Bool.and_comm]

/-- Rows that some columns do not tell apart are alike in each of them. -/
theorem alike_of_mem {c : String × Direction} (hc : c ∈ columns) {a b : Value}
    (h : alike (lexAbove columns) a b = true) : alike (columnAbove c) a b = true := by
  induction columns with
  | nil => cases hc
  | cons c' columns ih =>
    rw [lexAbove, Sorting.alike_andThen, Bool.and_eq_true] at h
    rcases List.mem_cons.mp hc with rfl | hc
    · exact h.1
    · exact ih hc h.2

/-- A column that occurs again decides nothing. -/
theorem lexAbove_append_singleton {c : String × Direction} (hc : c.1 ∈ Assoc.keys columns) :
    lexAbove (columns ++ [c]) = lexAbove columns := by
  obtain ⟨⟨name, d⟩, hmem, rfl⟩ := List.mem_map.mp hc
  rw [lexAbove_append]
  funext a b
  have hnone : lexAbove columns a b = false → lexAbove columns b a = false →
      columnAbove c a b = false := by
    intro hab hba
    have halike := alike_of_mem hmem (a := a) (b := b) (by simp [alike, hab, hba])
    rw [alike_columnAbove _ d c.2, alike, Bool.and_eq_true, Bool.not_eq_true'] at halike
    exact halike.1
  rw [andThen, lexAbove, lexAbove, andThen, Bool.and_false, Bool.or_false]
  cases hab : lexAbove columns a b <;> cases hba : lexAbove columns b a <;> simp_all

/-- The columns with other directions. -/
def withDirections (direction : String → Direction) (columns : List (String × Direction)) :
    List (String × Direction) :=
  columns.map fun c => (c.1, direction c.1)

/-- The direction with which a column occurs last. -/
def lastDirection (columns : List (String × Direction)) (name : String) : Direction :=
  (Assoc.find? name columns.reverse).getD .ascending

theorem keys_withDirections (direction : String → Direction) (columns : List (String × Direction)) :
    Assoc.keys (withDirections direction columns) = Assoc.keys columns := by
  simp [Assoc.keys, withDirections]

theorem find?_withDirections {direction : String → Direction} {name : String}
    (h : name ∈ Assoc.keys columns) :
    Assoc.find? name (withDirections direction columns) = some (direction name) := by
  induction columns with
  | nil => cases h
  | cons c columns ih =>
    rw [withDirections, List.map_cons, Assoc.find?]
    by_cases hc : c.1 = name
    · simp [hc]
    · rw [if_neg (by simpa using hc)]
      exact ih ((List.mem_cons.mp h).resolve_left (Ne.symm hc))

/-- Columns may be left out where they occur again with one direction. -/
theorem lexAbove_eraseDups (direction : String → Direction) (names : List String) :
    lexAbove (names.eraseDups.map fun name => (name, direction name)) =
      lexAbove (names.map fun name => (name, direction name)) := by
  induction names using List.reverseRecOn with
  | nil => rfl
  | append_singleton names name ih =>
    rw [List.eraseDups_append, List.map_append, List.map_append, List.map_singleton]
    by_cases hname : name ∈ names
    · have hkey : name ∈ Assoc.keys (names.map fun name => (name, direction name)) := by
        simpa [Assoc.keys] using hname
      rw [lexAbove_append_singleton hkey, ← ih]
      simp [List.removeAll, hname]
    · rw [lexAbove_append, lexAbove_append, ih]
      simp [List.removeAll, hname, List.eraseDups_cons]

/-- Joined columns are in the order of the columns with the directions that are found last. -/
theorem lexAbove_ofPairs (columns : List (String × Direction)) :
    lexAbove (Assoc.ofPairs columns) =
      lexAbove (withDirections (lastDirection columns) columns) := by
  have hjoined : Assoc.ofPairs columns =
      (Assoc.keys columns).eraseDups.map fun name => (name, lastDirection columns name) := by
    rw [← Assoc.keys_ofPairs, Assoc.keys, List.map_map]
    refine (List.map_id _).symm.trans (List.map_congr_left fun c hc => ?_)
    have hfind := (Assoc.find?_eq_some_iff (Assoc.nodup_keys_ofPairs columns)).mpr hc
    rw [Assoc.find?_ofPairs] at hfind
    show c = (c.1, lastDirection columns c.1)
    rw [lastDirection, hfind]
    rfl
  rw [hjoined, lexAbove_eraseDups, withDirections, Assoc.keys, List.map_map]
  rfl

/-- Only the direction of the first occurrence of a column counts. -/
theorem lexAbove_withDirections {direction : String → Direction}
    (h : ∀ name ∈ Assoc.keys columns, Assoc.find? name columns = some (direction name)) :
    lexAbove (withDirections direction columns) = lexAbove columns := by
  induction columns using List.reverseRecOn with
  | nil => rfl
  | append_singleton columns c ih =>
    have hfront : ∀ name ∈ Assoc.keys columns,
        Assoc.find? name columns = some (direction name) := by
      intro name hname
      have hfind := h name (by simp [hname])
      obtain ⟨d, hd⟩ := Option.isSome_iff_exists.mp (Assoc.find?_isSome_iff.mpr hname)
      rw [Assoc.find?_append, hd] at hfind
      rw [hd]
      exact hfind
    rw [withDirections, List.map_append, List.map_singleton, ← withDirections]
    by_cases hc : c.1 ∈ Assoc.keys columns
    · rw [lexAbove_append_singleton hc, lexAbove_append_singleton, ih hfront]
      rwa [keys_withDirections]
    · have hdirection : direction c.1 = c.2 := by
        have hfind := h c.1 (by simp)
        rw [Assoc.find?_append, Assoc.find?_eq_none_iff.mpr hc] at hfind
        simpa [Assoc.find?] using hfind.symm
      rw [lexAbove_append, lexAbove_append, ih hfront, hdirection]

/-- Comparisons that agree sort alike. -/
theorem lexSort?_congr {columns' : List (String × Direction)}
    (h : ∀ c ∈ columns, AreComparable c.1 rows) (h' : ∀ c ∈ columns', AreComparable c.1 rows)
    (heq : lexAbove columns = lexAbove columns') :
    sort? (lexAbove? columns) rows = sort? (lexAbove? columns') rows := by
  obtain ⟨sorted, hsorted, hsorts⟩ := lexSort?_sorts h
  obtain ⟨sorted', hsorted', hsorts'⟩ := lexSort?_sorts h'
  rw [hsorted, hsorted',
    Sorts.unique (lexAbove_orders h) (fun _ hrow => hrow) hsorts (heq ▸ hsorts')]

/-! ## Rendered sorts -/

/-- The rows that the store leaves after the sort that is rendered of orderings as a caller wrote
    them. Without orderings there is no sort. -/
def renderedSort? (search : Value → Bool → Value → Bool) (values rows : List Value) :
    Except Error (Option (List Value)) := do
  match ← Pipeline.sortStageOf? (.list values) with
  | none => .ok (some rows)
  | some stage => stage.toDocument.map (stage? search rows)

variable {search : Value → Bool → Value → Bool} {values : List Value} {orders : List Order}

theorem sortStageOf?_eq (h : Order.ofValues values = .ok orders) :
    Pipeline.sortStageOf? (.list values) = .ok (Pipeline.sortStage? orders) := by
  have hmembers : (Value.list values).givenMembers = .ok values := by cases values <;> rfl
  rw [Pipeline.sortStageOf?, hmembers]
  show Order.ofValues values >>= _ = _
  rw [h]
  rfl

/-- A rendered sort is the lexicographic sort by its columns, joined. -/
theorem renderedSort?_eq_ofPairs (hvalues : Order.ofValues values = .ok orders)
    (h : ∀ c ∈ Order.wireColumns orders, AreComparable c.1 rows) :
    renderedSort? search values rows =
      .ok (sort? (lexAbove? (Assoc.ofPairs (Order.wireColumns orders))) rows) := by
  have hjoined : ∀ c ∈ Assoc.ofPairs (Order.wireColumns orders), AreComparable c.1 rows :=
    fun c hc => h c (Assoc.mem_of_mem_ofPairs hc)
  rw [renderedSort?, sortStageOf?_eq hvalues, ← sortBy?_eq_lexSort? hjoined, Encoding.sortStage?_eq]
  cases orders with
  | nil => rfl
  | cons o orders =>
    show Except.map (stage? search rows) (Stage.sort _).toDocument = _
    rw [Encoding.toDocument_sort]
    rfl

/-! ## Directions that differ -/

/-- A row with one whole number. -/
def numberRow (name : String) (n : Int) : Value :=
  .object [(name, .int n)]

theorem at?_numberRow_of_ne {name path : String} (h : path ≠ name) (n : Int) :
    at? (numberRow name n) path = none := by
  by_cases hdot : '.' ∈ path.toList
  · -- The first step finds a number at most, and nothing lies below a number.
    obtain ⟨first, second, rest, hsplit⟩ := Selection.exists_splitOn_of_mem hdot
    have hfirst : ∀ v, step? (numberRow name n) first = some v → v = .int n := by
      intro v hv
      simp only [step?, numberRow, Value.object, Value.entries?, Option.bind_some, List.map_cons,
        List.map_nil, Assoc.find?] at hv
      split at hv
      · exact (Option.some.inj hv).symm
      · cases hv
    rw [at?, hsplit, List.foldlM_cons]
    cases hstep : step? (numberRow name n) first with
    | none => rfl
    | some v =>
      obtain rfl := hfirst v hstep
      rfl
  · rw [numberRow, Selection.at?_object hdot]
    simp [Assoc.find?, Ne.symm h]

theorem below?_numberRow {name : String} (hname : '.' ∉ name.toList) (path : String) (m n : Int) :
    below? (sortKey path (numberRow name m)) (sortKey path (numberRow name n)) =
      some (decide (path = name ∧ m < n)) := by
  by_cases hpath : path = name
  · have hkey : ∀ k : Int, sortKey path (numberRow name k) = some (.int k) := by
      intro k
      rw [hpath, sortKey, numberRow, Selection.at?_object hname]
      simp [Assoc.find?]
    have hcompare : Value.ComparesAs (.int m) (.int n) (compare m n) :=
      Value.comparesAs_of_int rfl rfl
    rw [hkey, hkey, below?, hcompare.equal, hcompare.less]
    rcases Int.lt_trichotomy m n with hlt | rfl | hgt
    · simp [Std.compare_eq_lt.mpr hlt, hlt, hpath]
    · simp
    · simp [Std.compare_eq_gt.mpr hgt, Int.lt_asymm hgt]
  · have hkey : ∀ k : Int, sortKey path (numberRow name k) = none := by
      intro k
      rw [sortKey, at?_numberRow_of_ne hpath]
    rw [hkey, hkey]
    simp [below?, hpath]

/-- Rows of one whole number can be compared by every column. -/
theorem areComparable_numberRows {name : String} (hname : '.' ∉ name.toList) (path : String)
    (ns : List Int) : AreComparable path (ns.map (numberRow name)) := by
  have hbelow := below?_numberRow hname path
  constructor
  · simp [hbelow]
  · simp only [List.forall_mem_map, hbelow, Option.some.injEq, decide_eq_true_eq]
    intro m _ n _ hmn hnm
    rw [Option.some.injEq, decide_eq_true_eq] at hnm
    exact Int.lt_asymm hmn.2 hnm.2
  · simp only [List.forall_mem_map, hbelow, Option.some.injEq, decide_eq_true_eq]
    intro m _ n _ k _ hmk
    exact (Int.lt_or_le m n).imp (⟨hmk.1, ·⟩) fun hnm => ⟨hmk.1, Int.lt_of_le_of_lt hnm hmk.2⟩

/-- The first number stands above the second in a direction. -/
def numberAbove (d : Direction) (m n : Int) : Bool :=
  match d with
  | .ascending => m < n
  | .descending => n < m

theorem columnAbove_numberRow {name : String} (hname : '.' ∉ name.toList)
    (c : String × Direction) (m n : Int) : columnAbove c (numberRow name m) (numberRow name n) =
      (decide (c.1 = name) && numberAbove c.2 m n) := by
  obtain ⟨path, d⟩ := c
  cases d with
  | ascending => simp [columnAbove, above?_ascending, below?_numberRow hname, numberAbove]
  | descending => simp [columnAbove, above?_descending, below?_numberRow hname, numberAbove]

/-- Rows of one whole number are in the order of the first direction of its column. -/
theorem lexAbove_numberRow {name : String} (hname : '.' ∉ name.toList)
    (columns : List (String × Direction)) (m n : Int) :
    lexAbove columns (numberRow name m) (numberRow name n) =
      (Assoc.find? name columns).any (numberAbove · m n) := by
  induction columns with
  | nil => rfl
  | cons c columns ih =>
    rw [lexAbove, andThen, columnAbove_numberRow hname, columnAbove_numberRow hname, ih]
    by_cases hc : c.1 = name
    · have hnone : numberAbove c.2 m n = false → numberAbove c.2 n m = false →
          (Assoc.find? name columns).any (numberAbove · m n) = false := by
        intro hmn hnm
        rw [Option.any_eq_false]
        intro d _
        cases hdirection : c.2 <;> cases d <;> simp_all [numberAbove]
      simp only [hc, decide_true, Bool.true_and, Assoc.find?, beq_self_eq_true, if_true,
        Option.any_some]
      cases hmn : numberAbove c.2 m n <;> cases hnm : numberAbove c.2 n m <;> simp_all
    · simp [Assoc.find?, hc]

/-- Two such rows in the order of a direction. -/
def numberRows (name : String) : Direction → List Value
  | .ascending => [numberRow name 1, numberRow name 2]
  | .descending => [numberRow name 2, numberRow name 1]

theorem numberRows_injective (name : String) : Function.Injective (numberRows name) := by
  intro d d' h
  cases d <;> cases d' <;> simp_all [numberRows, numberRow, Value.object]

/-- The first direction of the column decides which of two such rows comes first. -/
theorem lexSort?_numberRows {name : String} (hname : '.' ∉ name.toList) {d : Direction}
    (hd : Assoc.find? name columns = some d) :
    sort? (lexAbove? columns) (numberRows name .ascending) = some (numberRows name d) := by
  have hcomparable : ∀ c ∈ columns, AreComparable c.1 ([1, 2].map (numberRow name)) :=
    fun c _ => areComparable_numberRows hname c.1 [1, 2]
  have hanswer := (lexAbove_orders hcomparable).answers (a := numberRow name 2)
    (b := numberRow name 1) (by simp) (by simp)
  rw [lexAbove_numberRow hname, hd] at hanswer
  show insert? (lexAbove? columns) (numberRow name 1) [numberRow name 2] = _
  rw [insert?, hanswer]
  cases d <;> rfl

/-! ## The extent of rendered sorts -/

/-- The rows in the order of orderings, the first of them the most significant. -/
def declaredSort? (orders : List Order) (rows : List Value) : Option (List Value) :=
  sort? (lexAbove? (Order.wireColumns orders)) rows

/-- The direction of the last ordering for a wire field. -/
def lastOf (orders : List Order) (field : String) : Direction :=
  lastDirection (Order.wireColumns orders) (FieldName.wire (.text field))

/-- Each ordering with the direction of the last ordering for its wire field. -/
def withLastDirections (orders : List Order) : List Order :=
  orders.map fun o => { o with direction := lastOf orders o.field }

/-- The orderings for a wire field end with the direction that they begin with. -/
def EndsAsBegun (orders : List Order) (field : String) : Prop :=
  Assoc.find? (FieldName.wire (.text field)) (Order.wireColumns orders) = some (lastOf orders field)

theorem wireColumns_withLastDirections (orders : List Order) :
    Order.wireColumns (withLastDirections orders) =
      withDirections (lastDirection (Order.wireColumns orders)) (Order.wireColumns orders) := by
  rw [Order.wireColumns, withLastDirections, withDirections, Order.wireColumns, List.map_map,
    List.map_map]
  rfl

/-- A rendered sort is the lexicographic sort by the declared orderings, each given the last
    direction of its wire field. So it is the declared sort if the orderings for each field end as
    they began; and if those for some field of one step do not, there are rows that the two put in
    different orders. -/
theorem renderedSort?_eq_declaredSort? (search : Value → Bool → Value → Bool)
    (hvalues : Order.ofValues values = .ok orders) :
    (∀ rows : List Value, (∀ o ∈ orders, AreComparable (FieldName.wire (.text o.field)) rows) →
      ∃ sorted, renderedSort? search values rows = .ok (some sorted) ∧
        declaredSort? (withLastDirections orders) rows = some sorted ∧
        ((∀ o ∈ orders, EndsAsBegun orders o.field) → declaredSort? orders rows = some sorted)) ∧
    ∀ o ∈ orders, '.' ∉ (FieldName.wire (.text o.field)).toList → ¬ EndsAsBegun orders o.field →
      ∃ rows sorted sorted', (∀ o ∈ orders, AreComparable (FieldName.wire (.text o.field)) rows) ∧
        renderedSort? search values rows = .ok (some sorted) ∧
        declaredSort? orders rows = some sorted' ∧ sorted ≠ sorted' := by
  have hlast : ∀ rows : List Value, (∀ c ∈ Order.wireColumns orders, AreComparable c.1 rows) →
      renderedSort? search values rows = .ok (declaredSort? (withLastDirections orders) rows) := by
    intro rows h
    rw [renderedSort?_eq_ofPairs hvalues h, declaredSort?, wireColumns_withLastDirections,
      lexSort?_congr (fun c hc => h c (Assoc.mem_of_mem_ofPairs hc)) ?_ (lexAbove_ofPairs _)]
    exact List.forall_mem_map.mpr h
  constructor
  · intro rows hrows
    have hcomparable : ∀ c ∈ Order.wireColumns orders, AreComparable c.1 rows :=
      List.forall_mem_map.mpr hrows
    have hcomparable' : ∀ c ∈ Order.wireColumns (withLastDirections orders),
        AreComparable c.1 rows := by
      rw [wireColumns_withLastDirections]
      exact List.forall_mem_map.mpr hcomparable
    obtain ⟨sorted, hsorted, -⟩ := lexSort?_sorts hcomparable'
    refine ⟨sorted, ?_, hsorted, fun hends => ?_⟩
    · rw [hlast rows hcomparable]
      exact congrArg Except.ok hsorted
    · rw [declaredSort?, ← hsorted]
      refine lexSort?_congr hcomparable hcomparable' ?_
      rw [wireColumns_withLastDirections, lexAbove_withDirections]
      intro name hname
      obtain ⟨c, hc, rfl⟩ := List.mem_map.mp hname
      obtain ⟨o, ho, rfl⟩ := List.mem_map.mp hc
      exact hends o ho
  · intro o ho hdot hends
    have hmem : FieldName.wire (.text o.field) ∈ Assoc.keys (Order.wireColumns orders) :=
      List.mem_map_of_mem (List.mem_map_of_mem ho)
    obtain ⟨d, hd⟩ := Option.isSome_iff_exists.mp (Assoc.find?_isSome_iff.mpr hmem)
    have hne : lastOf orders o.field ≠ d := fun heq => hends (hd.trans (congrArg some heq.symm))
    have hcomparable : ∀ path, AreComparable path
        (numberRows (FieldName.wire (.text o.field)) .ascending) :=
      fun path => areComparable_numberRows hdot path [1, 2]
    have hrendered := hlast _ fun c _ => hcomparable c.1
    rw [declaredSort?, wireColumns_withLastDirections,
      lexSort?_numberRows hdot (find?_withDirections hmem)] at hrendered
    exact ⟨_, _, _, fun o' _ => hcomparable _, hrendered, lexSort?_numberRows hdot hd,
      fun heq => hne (numberRows_injective _ heq)⟩

/-- Songs by falling plays and then by title, with plays written once more: the repeated field
    decides nothing. -/
theorem renderedSort?_eq_declaredSort?_songs :
    let values : List Value := [.text "-plays", .order ⟨"title", .ascending⟩, .text " plays- "]
    let first : Value := .object [("title", .text "b"), ("plays", .int 1)]
    let second : Value := .object [("title", .text "c"), ("plays", .int 2)]
    let third : Value := .object [("title", .text "a"), ("plays", .int 1)]
    ∃ orders, Order.ofValues values = .ok orders ∧
      renderedSort? (fun _ _ _ => false) values [first, second, third] =
        .ok (some [second, third, first]) ∧
      declaredSort? orders [first, second, third] = some [second, third, first] := by
  intro values first second third
  let orders : List Order := [⟨"plays", .descending⟩, ⟨"title", .ascending⟩, ⟨"plays", .descending⟩]
  have hvalues : Order.ofValues values = .ok orders := by rfl
  have hplays : AreComparable "plays" [first, second, third] := ⟨by decide, by decide, by decide⟩
  have htitle : AreComparable "title" [first, second, third] := ⟨by decide, by decide, by decide⟩
  obtain ⟨sorted, hrendered, -, hdeclared⟩ :=
    (renderedSort?_eq_declaredSort? (fun _ _ _ => false) hvalues).1 [first, second, third]
      (by simp only [orders, List.forall_mem_cons]; exact ⟨hplays, htitle, hplays, nofun⟩)
  have hends : ∀ o ∈ orders, EndsAsBegun orders o.field := by
    simp only [orders, List.forall_mem_cons]
    exact ⟨rfl, rfl, rfl, nofun⟩
  have hsorted : declaredSort? orders [first, second, third] = some [second, third, first] := by rfl
  obtain rfl := Option.some.inj ((hdeclared hends).symm.trans hsorted)
  exact ⟨orders, hvalues, hrendered, hsorted⟩

/-- A field with one direction and then with the other: the first ordering has to decide, and in
    the rendered sort the second one does. -/
theorem repeated_field_sorts_backwards :
    let values : List Value := [.text "plays", .text "-plays"]
    let rows := [numberRow "plays" 1, numberRow "plays" 2]
    ∃ orders, Order.ofValues values = .ok orders ∧ AreComparable "plays" rows ∧
      declaredSort? orders rows = some [numberRow "plays" 1, numberRow "plays" 2] ∧
      renderedSort? (fun _ _ _ => false) values rows =
        .ok (some [numberRow "plays" 2, numberRow "plays" 1]) := by
  intro values rows
  refine ⟨[⟨"plays", .ascending⟩, ⟨"plays", .descending⟩], rfl,
    areComparable_numberRows (by decide) "plays" [1, 2], rfl, rfl⟩

end DocQuery.Store
