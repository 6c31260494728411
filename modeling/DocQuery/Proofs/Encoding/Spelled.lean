-- SUMMARY: How the store spells a field path at each place of a pipeline where it occurs.
import DocQuery.Proofs.Encoding.Computed
import DocQuery.Proofs.Encoding.Data

/-!
# Spellings of a path

Fields are named by the keys of match bodies, sorts and projections, and by references in
expressions. At each of these places the names of an encoded stage are the spellings of the
names that stood there: a key is respelled as a whole, a reference by its first step. So a
path has one spelling, unless it leads into a system field.
-/

namespace DocQuery

namespace FieldName

/-- As a key and as a reference a path is spelled alike, unless it leads into a field that is
    respelled. -/
theorem storedPath_eq_toStorage_iff {path : String} :
    storedPath path = toStorage path ↔ '.' ∉ path.toList ∨ firstStep path ∉ respelled := by
  have hstored : storedPath path =
      toStorage (firstStep path) ++ String.ofList (path.toList.dropWhile (· != '.')) := rfl
  by_cases hdot : '.' ∈ path.toList
  · have hwhole : toStorage path = path := by
      refine toStorage_eq_self_iff.mpr fun h => ?_
      simp only [respelled, List.mem_cons, List.not_mem_nil, or_false] at h
      rcases h with rfl | rfl | rfl <;> exact absurd hdot (by decide)
    have hpath : path = firstStep path ++ String.ofList (path.toList.dropWhile (· != '.')) := by
      rw [firstStep, ← String.ofList_append, List.takeWhile_append_dropWhile,
        String.ofList_toList]
    rw [hwhole, or_iff_right (not_not.mpr hdot), ← toStorage_eq_self_iff, hstored]
    conv_lhs => rhs; rw [hpath]
    exact String.append_left_inj _
  · have hall : ∀ c ∈ path.toList, (c != '.') = true := by
      rintro c hc
      rw [bne_iff_ne]
      rintro rfl
      exact hdot hc
    have hfirst : firstStep path = path := by
      rw [firstStep, List.takeWhile_eq_self_iff.mpr hall, String.ofList_toList]
    have hrest : path.toList.dropWhile (· != '.') = [] := List.dropWhile_eq_nil_iff.mpr hall
    refine iff_of_true ?_ (.inl hdot)
    rw [hstored, hfirst, hrest]
    simp

end FieldName

namespace Encoding

open FieldName (respelled firstStep storedPath toStorage pointerColumn)

/-! ## Names in a stage -/

/-- What a name stands for where it occurs. -/
inductive Role where
  /-- A stored field. -/
  | field
  /-- A stored field that is compared with a pointer. -/
  | pointer
  /-- An operator, or a field that is computed. -/
  | other
  deriving DecidableEq, Repr

/-- A name where it occurs. -/
abbrev Occurrence := String × Role

/-- A place of a stage at which it names fields: the keys of a match body, which may lie in the
    lists of another one, the keys of a sort or a projection, and a reference in the body of a
    stage or in an entry of a projection. -/
inductive Site where
  | clauses (steps : List (String × Nat))
  | sortKeys
  | projection
  | reference (op : String) (steps : List Step)
  | computed (name : String) (steps : List Step)

/-- The occurrences among the keys of a mapping. -/
def keyOccurrences (role : String → Value → Role) : Value → Option (List Occurrence)
  | .map es => some (es.map fun e => (e.1.keyText, role e.1.keyText e.2))
  | _ => none

/-- The path of a reference. -/
def referenceOccurrence : Value → Option (List Occurrence)
  | .text s =>
    match s.toList with
    | '$' :: path => some [(String.ofList path, .field)]
    | _ => none
  | _ => none

/-- What the key of a clause stands for. -/
def clauseRole (key : String) (v : Value) : Role :=
  if key.toList.head? = some '$' then .other else if holdsPointer v then .pointer else .field

/-- What the key of a projection stands for. -/
def projectionRole (_key : String) (spec : Value) : Role :=
  if isFlag spec then .field else .other

/-- The match body that is reached through lists of match bodies. -/
def bodyAt? : List (String × Nat) → Value → Option Value
  | [], v => some v
  | (key, i) :: steps, .map es =>
    if isLogical key then
      (((Assoc.find? key (Value.fields es)).bind Value.sequence?).bind (·[i]?)).bind
        (bodyAt? steps)
    else none
  | _, _ => none

/-- The entry of a projection that the store keeps under a name. -/
def projected? (name : String) : Value → Option Value
  | .map es => Assoc.find? name (Assoc.ofPairs (es.map fun e => (projectedName e.1 e.2, e.2)))
  | _ => none

/-- How the store spells a name that is a key. -/
def keySpelled : Occurrence → String
  | (name, .field) => toStorage name
  | (name, .pointer) => pointerColumn name
  | (name, .other) => name

/-- The operators whose bodies are expressions. -/
def expressionOperators : List String :=
  ["$group", "$unwind", "$addFields"]

namespace Site

/-- The names at a place of a stage. -/
def occurrences? (stage : Value) : Site → Option (List Occurrence)
  | clauses steps => ((body? "$match" stage).bind (bodyAt? steps)).bind (keyOccurrences clauseRole)
  | sortKeys => (body? "$sort" stage).bind (keyOccurrences fun _ _ => .field)
  | projection => (body? "$project" stage).bind (keyOccurrences projectionRole)
  | reference op steps =>
    if op ∈ expressionOperators then
      ((body? op stage).bind (expressionAt? steps)).bind referenceOccurrence
    else none
  | computed name steps =>
    (((body? "$project" stage).bind (projected? name)).bind (expressionAt? steps)).bind
      referenceOccurrence

/-- The names at a place of a stage, whatever they stand for. -/
def names? (stage : Value) (site : Site) : Option (List String) :=
  (site.occurrences? stage).map (·.map (·.1))

/-- There is a reference at the place. -/
def isReference : Site → Bool
  | reference _ _ | computed _ _ => true
  | _ => false

/-- How the store spells a name at a place. -/
def spelled (site : Site) (o : Occurrence) : String :=
  if site.isReference then storedPath o.1 else keySpelled o

end Site

/-! ## Keys -/

/-- The keys of a mapping that is made are those of its entries, each of them once. -/
theorem names_object (role : String → Value → Role) (fields : List (String × Value)) :
    (keyOccurrences role (.object (Assoc.ofPairs fields))).map (·.map (·.1)) =
      some (Assoc.keys fields).eraseDups := by
  rw [← Assoc.keys_ofPairs]
  simp [Value.object, keyOccurrences, Assoc.keys, Function.comp_def, Value.keyText, Value.display]

/-- Where each key is spelled for the store, the names are the spelled ones. -/
theorem names_of_keySpelled {role role' : String → Value → Role} {es : List (Value × Value)}
    {fields : List (String × Value)} (h : List.Forall₂ (fun e f =>
      keySpelled (e.1.keyText, role e.1.keyText e.2) = f.1) es fields)
    {os : List Occurrence} (hos : keyOccurrences role (.map es) = some os) :
    (keyOccurrences role' (.object (Assoc.ofPairs fields))).map (·.map (·.1)) =
      some (os.map keySpelled).eraseDups := by
  cases hos
  rw [names_object, Assoc.keys, List.map_map]
  exact congrArg (fun names => some (List.eraseDups names))
    (map_eq_map_of_forall₂ h fun _ _ => id).symm

/-! ## Match bodies -/

theorem head?_of_isLogical {key : String} (h : isLogical key = true) :
    key.toList.head? = some '$' := by
  simp only [isLogical, List.contains_eq_mem, decide_eq_true_eq, List.mem_cons, List.not_mem_nil,
    or_false] at h
  rcases h with rfl | rfl | rfl <;> rfl

/-- The spelling of the key of a clause is an operator only if the key is the operator. -/
theorem keySpelled_clause_eq_iff {operator : String} (h : operator.toList.head? = some '$')
    (key : String) (v : Value) :
    keySpelled (key, clauseRole key v) = operator ↔ key = operator := by
  unfold clauseRole
  split_ifs with hkey hpointer
  · rfl
  · refine iff_of_false (fun hspelled => ?_) fun heq => hkey (heq ▸ h)
    obtain ⟨cs, hcs⟩ := FieldName.exists_pointerColumn key
    rw [← hspelled, keySpelled, hcs] at h
    cases h
  · refine iff_of_false (fun hspelled => ?_) fun heq => hkey (heq ▸ h)
    rw [← hspelled] at h
    exact FieldName.operator_toStorage hkey h

/-- A clause is encoded under the spelling of its key, and the bodies that it holds are encoded. -/
def ClauseEncoded (e : Value × Value) (f : String × Value) : Prop :=
  keySpelled (e.1.keyText, clauseRole e.1.keyText e.2) = f.1 ∧
    (isLogical e.1.keyText = true → alternatives .storage e.2 = .ok f.2)

theorem clauseEncoded_of_clause {e : Value × Value} {f : String × Value}
    (hlogical : isLogical e.1.keyText = false) (h : clause .storage e.1.keyText e.2 = .ok f) :
    ClauseEncoded e f := by
  refine ⟨?_, fun htrue => absurd htrue (by rw [hlogical]; decide)⟩
  unfold clause at h
  unfold clauseRole
  split_ifs at h ⊢ with hkey hpointer
  all_goals
    obtain ⟨w, _, rfl⟩ := exists_of_map_eq_ok h
  · rfl
  · rw [clauseName, if_pos hpointer, keySpelled]
  · rw [clauseName, if_neg hpointer]
    rfl

/-- A match body is encoded clause by clause. -/
theorem exists_of_matchBody {es : List (Value × Value)} {w : Value}
    (h : matchBody .storage (.map es) = .ok w) :
    ∃ fields, w = .object (Assoc.ofPairs fields) ∧ List.Forall₂ ClauseEncoded es fields := by
  obtain ⟨fields, hfields, rfl⟩ := exists_of_map_eq_ok h
  rw [matchEntries_eq_mapM] at hfields
  refine ⟨fields, rfl, (mapM_eq_ok_iff.mp hfields).imp fun e f hef => ?_⟩
  split_ifs at hef with hlogical
  · obtain ⟨bs, hbs, rfl⟩ := exists_of_map_eq_ok hef
    exact ⟨(keySpelled_clause_eq_iff (head?_of_isLogical hlogical) _ _).mpr rfl, fun _ => hbs⟩
  · exact clauseEncoded_of_clause (eq_false_of_ne_true hlogical) hef

/-- The lists of bodies in a match body are encoded body by body. -/
theorem exists_alternatives {es : List (Value × Value)} {fields : List (String × Value)}
    (h : List.Forall₂ ClauseEncoded es fields) {key : String} (hkey : isLogical key = true)
    {v : Value} (hv : Assoc.find? key (Value.fields es) = some v) :
    ∃ w, Assoc.find? key (Assoc.ofPairs fields) = some w ∧ alternatives .storage v = .ok w := by
  have hat : List.Forall₂ (fun e f => (e.1 = key ↔ f.1 = key) ∧
      (e.1 = key → alternatives .storage e.2 = .ok f.2)) (Value.textEntries es) fields := by
    rw [Value.textEntries, List.forall₂_map_left_iff]
    refine h.imp fun e f hef => ⟨?_, fun heq => hef.2 ?_⟩
    · rw [← hef.1, keySpelled_clause_eq_iff (head?_of_isLogical hkey)]
    · rwa [show e.1.keyText = key from heq]
  exact exists_of_rel_some
    (Assoc.find?_ofPairs_forall₂_at (fun v w => alternatives .storage v = .ok w) hat) hv

/-- A list of bodies is encoded item by item. -/
theorem exists_item_of_alternatives {v w x : Value} {xs : List Value} {i : Nat}
    (h : alternatives .storage v = .ok w) (hxs : v.sequence? = some xs) (hx : xs[i]? = some x) :
    ∃ ys y, w.sequence? = some ys ∧ ys[i]? = some y ∧ matchBody .storage x = .ok y := by
  have hbodies : (matchBodies .storage xs).map .list = .ok w := by
    cases v with
    | list zs | tuple zs =>
      cases hxs
      exact h
    | _ => cases hxs
  obtain ⟨ys, hys, rfl⟩ := exists_of_map_eq_ok hbodies
  rw [matchBodies_eq_mapM] at hys
  obtain ⟨y, hy, hxy⟩ := exists_getElem?_of_forall₂ (mapM_eq_ok_iff.mp hys) hx
  exact ⟨ys, y, rfl, hy, hxy⟩

/-- A body in a match body is encoded where it stands. -/
theorem exists_bodyAt? {steps : List (String × Nat)} {v w x : Value}
    (h : matchBody .storage v = .ok w) (hx : bodyAt? steps v = some x) :
    ∃ y, bodyAt? steps w = some y ∧ matchBody .storage x = .ok y := by
  induction steps generalizing v w with
  | nil =>
    cases hx
    exact ⟨w, rfl, h⟩
  | cons step steps ih =>
    obtain ⟨key, i⟩ := step
    cases v with
    | map es =>
      rw [bodyAt?] at hx
      split_ifs at hx with hkey
      obtain ⟨b, hb, hbx⟩ := Option.bind_eq_some_iff.mp hx
      obtain ⟨xs, hxs, hi⟩ := Option.bind_eq_some_iff.mp hb
      obtain ⟨z, hz, hseq⟩ := Option.bind_eq_some_iff.mp hxs
      obtain ⟨fields, rfl, hfields⟩ := exists_of_matchBody h
      obtain ⟨z', hz', hzz'⟩ := exists_alternatives hfields hkey hz
      obtain ⟨ys, b', hys, hi', hbb'⟩ := exists_item_of_alternatives hzz' hseq hi
      obtain ⟨y, hy, hxy⟩ := ih hbb' hbx
      refine ⟨y, ?_, hxy⟩
      rw [Value.object, bodyAt?, if_pos hkey, Value.fields_object,
        Assoc.ofPairs_of_nodup (Assoc.nodup_keys_ofPairs fields), hz', Option.bind_some, hys,
        Option.bind_some, hi', Option.bind_some, hy]
    | _ => cases hx

/-! ## Projections -/

/-- A value is a flag exactly when it is one for the store. -/
theorem isFlag_expression {v w : Value} (h : expression .storage v = .ok w) :
    isFlag w = isFlag v := by
  have hmade : isFlag v = false → isFlag w = isFlag v := by
    intro hv
    obtain rfl | hw := eq_or_isMade h
    · rfl
    · rw [hw.isFlag, hv]
  cases v with
  | text | brokenText | pointer | date | datetime | list | tuple | map => exact hmade rfl
  | _ =>
    cases h
    rfl

/-- An entry of a projection keeps in the store the name that it has there. -/
theorem projectedName_encoded {k spec w : Value} (h : expression .storage spec = .ok w) :
    projectedName (.text (projectedName k spec)) w = projectedName k spec := by
  have htext : ∀ name : String, (Value.text name).keyText = name := fun _ => rfl
  rw [projectedName, isFlag_expression h, htext, projectedName]
  split
  · exact FieldName.toStorage_toStorage _
  · rfl

/-- An entry of a projection is encoded under the name that it has in the store. -/
theorem exists_projected? {es : List (Value × Value)} {w spec : Value} {name : String}
    (h : stageBody .storage "$project" (.map es) = .ok w)
    (hspec : projected? name (.map es) = some spec) :
    ∃ spec', projected? name w = some spec' ∧ expression .storage spec = .ok spec' := by
  obtain ⟨fields, rfl, hfields⟩ := exists_of_projection h
  have hnamed : ∀ f ∈ Assoc.ofPairs fields, (projectedName (.text f.1) f.2, f.2) = f := by
    intro f hf
    obtain ⟨e, _, hname, hencoded⟩ :=
      exists_mem_of_forall₂ hfields.flip (Assoc.mem_of_mem_ofPairs hf)
    rw [← hname, projectedName_encoded hencoded, hname]
  have hentries : ((Assoc.ofPairs fields).map fun f => (Value.text f.1, f.2)).map
      (fun e => (projectedName e.1 e.2, e.2)) = Assoc.ofPairs fields := by
    rw [List.map_map]
    exact (List.map_congr_left hnamed).trans (List.map_id _)
  have hrelated : List.Forall₂ (fun e f : String × Value => e.1 = f.1 ∧
      expression .storage e.2 = .ok f.2) (es.map fun e => (projectedName e.1 e.2, e.2)) fields :=
    List.forall₂_map_left_iff.mpr hfields
  rw [Value.object, projected?, hentries,
    Assoc.ofPairs_of_nodup (Assoc.nodup_keys_ofPairs fields)]
  exact exists_of_rel_some (Assoc.find?_forall₂ (fun _ v w => expression .storage v = .ok w)
    (Assoc.ofPairs_forall₂_keyed (fun _ v w => expression .storage v = .ok w) hrelated) name) hspec

/-! ## References -/

theorem referenceOccurrence_eq_some_iff {v : Value} {os : List Occurrence} :
    referenceOccurrence v = some os ↔
      ∃ path, v = .text ("$" ++ path) ∧ os = [(path, .field)] := by
  constructor
  · intro h
    cases v with
    | text s =>
      rw [referenceOccurrence] at h
      split at h
      · rename_i path hs
        cases h
        have htext : s = "$" ++ String.ofList path := by
          rw [← String.toList_inj, hs]
          simp
        exact ⟨String.ofList path, congrArg Value.text htext, rfl⟩
      · cases h
    | _ => cases h
  · rintro ⟨path, rfl, rfl⟩
    have hlist : ("$" ++ path).toList = '$' :: path.toList := by
      rw [String.toList_append]
      rfl
    rw [referenceOccurrence, hlist]
    show some [(String.ofList path.toList, Role.field)] = _
    rw [String.ofList_toList]

/-- A reference at a place of an expression is spelled as its path is in the store. -/
theorem reference_encoded {steps : List Step} {v w : Value} {os : List Occurrence}
    (h : expression .storage v = .ok w)
    (hos : (expressionAt? steps v).bind referenceOccurrence = some os) :
    ((expressionAt? steps w).bind referenceOccurrence).map (·.map (·.1)) =
      some (os.map fun o => storedPath o.1).eraseDups := by
  obtain ⟨x, hx, hox⟩ := Option.bind_eq_some_iff.mp hos
  obtain ⟨y, hy, hxy⟩ := exists_expressionAt? h hx
  obtain ⟨path, rfl, rfl⟩ := referenceOccurrence_eq_some_iff.mp hox
  cases hxy
  have hstored : referenceOccurrence (.text (reference ("$" ++ path))) =
      some [(storedPath path, .field)] :=
    referenceOccurrence_eq_some_iff.mpr ⟨storedPath path, by rw [reference_path], rfl⟩
  rw [hy, Option.bind_some, hstored]
  rfl

/-! ## Stages -/

/-- At each place the names of an encoded stage are the spelled names of the stage, each of them
    once. -/
theorem names_encoded {s d : Value} (h : stage .storage s = .ok d) {site : Site}
    {os : List Occurrence} (hos : site.occurrences? s = some os) :
    site.names? d = some (os.map site.spelled).eraseDups := by
  cases site with
  | clauses steps =>
    obtain ⟨x, hx, hox⟩ := Option.bind_eq_some_iff.mp hos
    obtain ⟨body, hbody, hxbody⟩ := Option.bind_eq_some_iff.mp hx
    obtain ⟨w, hw, hencoded⟩ := exists_body? h hbody
    obtain ⟨y, hy, hxy⟩ := exists_bodyAt? hencoded hxbody
    cases x with
    | map es =>
      obtain ⟨fields, rfl, hfields⟩ := exists_of_matchBody hxy
      rw [Site.names?, Site.occurrences?, hw, Option.bind_some, hy, Option.bind_some]
      exact names_of_keySpelled (hfields.imp fun _ _ hef => hef.1) hox
    | _ => cases hox
  | sortKeys =>
    obtain ⟨body, hbody, hox⟩ := Option.bind_eq_some_iff.mp hos
    obtain ⟨w, hw, hencoded⟩ := exists_body? h hbody
    cases body with
    | map es =>
      cases hencoded
      rw [Site.names?, Site.occurrences?, hw, Option.bind_some]
      refine names_of_keySpelled ?_ hox
      rw [List.forall₂_map_right_iff, List.forall₂_same]
      exact fun _ _ => rfl
    | _ => cases hox
  | projection =>
    obtain ⟨body, hbody, hox⟩ := Option.bind_eq_some_iff.mp hos
    obtain ⟨w, hw, hencoded⟩ := exists_body? h hbody
    cases body with
    | map es =>
      obtain ⟨fields, rfl, hfields⟩ := exists_of_projection hencoded
      rw [Site.names?, Site.occurrences?, hw, Option.bind_some]
      refine names_of_keySpelled (hfields.imp fun e f hef => ?_) hox
      rw [← hef.1, projectedName, projectionRole]
      split <;> rfl
    | _ => cases hox
  | reference op steps =>
    rw [Site.occurrences?] at hos
    split_ifs at hos with hop
    rw [Option.bind_assoc] at hos
    obtain ⟨body, hbody, hox⟩ := Option.bind_eq_some_iff.mp hos
    obtain ⟨w, hw, hencoded⟩ := exists_body? h hbody
    have hexpression : expression .storage body = .ok w := by
      simp only [expressionOperators, List.mem_cons, List.not_mem_nil, or_false] at hop
      obtain rfl | rfl | rfl := hop <;> exact hencoded
    rw [Site.names?, Site.occurrences?, if_pos hop, hw, Option.bind_some]
    exact reference_encoded hexpression hox
  | computed name steps =>
    rw [Site.occurrences?, Option.bind_assoc] at hos
    obtain ⟨spec, hspec, hox⟩ := Option.bind_eq_some_iff.mp hos
    obtain ⟨body, hbody, hbspec⟩ := Option.bind_eq_some_iff.mp hspec
    obtain ⟨w, hw, hencoded⟩ := exists_body? h hbody
    cases body with
    | map es =>
      obtain ⟨spec', hspec', hexpression⟩ := exists_projected? hencoded hbspec
      rw [Site.names?, Site.occurrences?, hw, Option.bind_some, hspec', Option.bind_some]
      exact reference_encoded hexpression hox
    | _ => cases hbspec

/-! ## Pipelines -/

/-- A path of a field is spelled alike at two places exactly when both are keys, or both are
    references, or the path does not lead into a system field. -/
theorem spelled_eq_iff (a b : Site) (path : String) :
    a.spelled (path, .field) = b.spelled (path, .field) ↔
      a.isReference = b.isReference ∨ '.' ∉ path.toList ∨ firstStep path ∉ respelled := by
  have hspelled : ∀ c : Site, c.spelled (path, .field) =
      if c.isReference then storedPath path else toStorage path := fun _ => rfl
  rw [hspelled, hspelled]
  cases a.isReference <;> cases b.isReference
  · simp
  · simpa using eq_comm.trans FieldName.storedPath_eq_toStorage_iff
  · simpa using FieldName.storedPath_eq_toStorage_iff
  · simp

/-- In a pipeline that is encoded for the store, the names at each place are the spelled ones, and
    a field path that occurs at two places is spelled alike exactly when both are keys, or both
    are references, or the path does not lead into a system field. -/
theorem spellings_of_path {stages docs : List Value}
    (hdocs : pipeline .storage (.list stages) = .ok docs) {i j : Nat} {s t : Value}
    (hs : stages[i]? = some s) (ht : stages[j]? = some t) {a b : Site} {os ps : List Occurrence}
    (ha : a.occurrences? s = some os) (hb : b.occurrences? t = some ps) :
    ∃ d e, docs[i]? = some d ∧ docs[j]? = some e ∧
      a.names? d = some (os.map a.spelled).eraseDups ∧
      b.names? e = some (ps.map b.spelled).eraseDups ∧
      ∀ path, (path, .field) ∈ os → (path, .field) ∈ ps →
        (a.spelled (path, .field) = b.spelled (path, .field) ↔ a.isReference = b.isReference ∨
          '.' ∉ path.toList ∨ firstStep path ∉ ["objectId", "createdAt", "updatedAt"]) := by
  have hstages : List.Forall₂ (fun s d => stage .storage s = .ok d) stages docs :=
    mapM_eq_ok_iff.mp hdocs
  obtain ⟨d, hd, hsd⟩ := exists_getElem?_of_forall₂ hstages hs
  obtain ⟨e, he, hte⟩ := exists_getElem?_of_forall₂ hstages ht
  exact ⟨d, e, hd, he, names_encoded hsd ha, names_encoded hte hb,
    fun path _ _ => spelled_eq_iff a b path⟩

/-- A path into an embedded document is spelled alike inside a list of bodies, where a creation
    time stands beside it, and in a grouping. -/
theorem spellings_of_path_embedded :
    let filter : Value := Stage.single "$match" (.object [("$or", .list
      [.object [("album.title", .text "Ha"), ("createdAt", .null)]])])
    let counts : Value := Stage.single "$group" (.object [("_id", .text "$album.title")])
    let a := Site.clauses [("$or", 0)]
    let b := Site.reference "$group" [.key "_id"]
    let os : List Occurrence := [("album.title", .field), ("createdAt", .field)]
    let ps : List Occurrence := [("album.title", .field)]
    a.occurrences? filter = some os ∧ b.occurrences? counts = some ps ∧
      ∃ docs d e, pipeline .storage (.list [filter, counts]) = .ok docs ∧
        docs[0]? = some d ∧ docs[1]? = some e ∧
        a.names? d = some ["album.title", "_created_at"] ∧ b.names? e = some ["album.title"] ∧
        a.spelled ("album.title", .field) = b.spelled ("album.title", .field) := by
  intro filter counts a b os ps
  have hfirst : [filter, counts][0]? = some filter := rfl
  have hsecond : [filter, counts][1]? = some counts := rfl
  have ha : a.occurrences? filter = some os := by decide +kernel
  have hb : b.occurrences? counts = some ps := by decide +kernel
  obtain ⟨d, e, hd, he, hnames, hnames', hiff⟩ :=
    spellings_of_path rfl hfirst hsecond ha hb
  refine ⟨ha, hb, _, d, e, rfl, hd, he, hnames, hnames', ?_⟩
  exact (hiff "album.title" (by decide) (by decide)).mpr (.inr (.inr (by decide)))

/-- A component of a compound group key keeps its name in a sort and is respelled in a
    reference. -/
theorem component_spelled_twice :
    let sort : Value := Stage.single "$sort" (.object [("objectId.genre", .int 1)])
    let unwind : Value := Stage.single "$unwind" (.text "$objectId.genre")
    Site.sortKeys.occurrences? sort = some [("objectId.genre", .field)] ∧
      (Site.reference "$unwind" []).occurrences? unwind = some [("objectId.genre", .field)] ∧
      ∃ d e, pipeline .storage (.list [sort, unwind]) = .ok [d, e] ∧
        Site.sortKeys.names? d = some ["objectId.genre"] ∧
        (Site.reference "$unwind" []).names? e = some ["_id.genre"] := by
  refine ⟨by decide +kernel, by decide +kernel, _, _, rfl, ?_, ?_⟩ <;> decide +kernel

end Encoding

end DocQuery
