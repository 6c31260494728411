-- SUMMARY: Which references to computed fields survive the encoding of a pipeline for the store.
import DocQuery.Proofs.Encoding.Expression

/-!
# Computed fields

A grouping, an added field or a computed entry of a projection makes a field that later
stages refer to. For the store every stage is encoded by itself: the stage that makes the
field keeps its name, while sort keys and references are respelled as if they named stored
fields. So a reference to a computed field survives exactly when it does not begin with the
name of a system field.
-/

namespace DocQuery.Encoding

open FieldName (respelled firstStep IsPathFrom storedPath)

/-! ## What stages make and refer to -/

/-- The body under an operator of a stage document. -/
def body? (op : String) : Value → Option Value
  | .map es => Assoc.find? op (Value.fields es)
  | _ => none

/-- A stage makes a field: under a grouping, among added fields, or as an entry of a
    projection that is no flag. -/
inductive Defines (stage : Value) (name : String) : Prop
  | added {op : String} {es : List (Value × Value)} (hop : op ∈ ["$group", "$addFields"])
    (hbody : body? op stage = some (.map es)) (hname : name ∈ Assoc.keys (Value.fields es))
  | projected {es : List (Value × Value)} {spec : Value}
    (hbody : body? "$project" stage = some (.map es))
    (hspec : Assoc.find? name (Value.fields es) = some spec) (hcomputed : isFlag spec = false)

/-- A way in which a stage refers to a field: as a key to sort by, or with a reference at a
    place of a body or of an entry of a projection. -/
inductive Use where
  | sortKey
  | reference (op : String) (steps : List Step)
  | projection (field : String) (steps : List Step)

/-- The part of a name that is respelled for a use of it. -/
def Use.spelled (use : Use) (name : String) : String :=
  match use with
  | .sortKey => name
  | .reference _ _ | .projection _ _ => firstStep name

/-- At the place there is a reference to the field or to a value inside of it. -/
def RefersAt (steps : List Step) (body : Value) (name : String) : Prop :=
  ∃ path, expressionAt? steps body = some (.text ("$" ++ path)) ∧ IsPathFrom name path

/-- A stage refers to a field in some way. -/
inductive Refers (stage : Value) (name : String) : Use → Prop
  | sortKey {es : List (Value × Value)} (hbody : body? "$sort" stage = some (.map es))
    (hname : name ∈ Assoc.keys (Value.fields es)) : Refers stage name .sortKey
  | reference {op : String} {steps : List Step} {body : Value}
    (hop : op ∈ ["$group", "$addFields", "$unwind"]) (hbody : body? op stage = some body)
    (hplace : RefersAt steps body name) : Refers stage name (.reference op steps)
  | projection {field : String} {steps : List Step} {es : List (Value × Value)} {spec : Value}
    (hbody : body? "$project" stage = some (.map es))
    (hspec : Assoc.find? field (Value.fields es) = some spec)
    (hplace : RefersAt steps spec name) : Refers stage name (.projection field steps)

/-- The name that an entry of a projection has in the store. -/
def projectedName (k spec : Value) : String :=
  if isFlag spec then FieldName.toStorage k.keyText else k.keyText

/-- The fields of a stage are told apart in the store: no body of added fields stands for a
    pointer or a date, and no two entries of a projection fall on one name. -/
structure IsClear (stage : Value) : Prop where
  untagged : ∀ op ∈ ["$group", "$addFields"], ∀ es, body? op stage = some (.map es) →
    isTaggedObject es = false
  names : ∀ es, body? "$project" stage = some (.map es) →
    (es.map fun e => projectedName e.1 e.2).Nodup

/-! ## Bodies -/

theorem nodup_keys_fields (es : List (Value × Value)) : (Assoc.keys (Value.fields es)).Nodup :=
  Assoc.nodup_keys_ofPairs (Value.textEntries es)

/-- The body under an operator is encoded as the operator wants. -/
theorem exists_body? {s d body : Value} {op : String} (h : stage .storage s = .ok d)
    (hbody : body? op s = some body) :
    ∃ w, body? op d = some w ∧ stageBody .storage op body = .ok w := by
  cases s with
  | map es =>
    obtain ⟨_, hes, h⟩ := exists_of_bind_eq_ok h
    cases hes
    obtain ⟨fields, hfields, h⟩ := exists_of_bind_eq_ok h
    cases h
    have hencoded : List.Forall₂ (fun e f => e.1 = f.1 ∧ stageBody .storage e.1 e.2 = .ok f.2)
        (Value.fields es) fields := by
      refine (mapM_eq_ok_iff.mp hfields).imp fun e f hef => ?_
      obtain ⟨w, hw, hf⟩ := exists_of_bind_eq_ok hef
      cases hf
      exact ⟨rfl, hw⟩
    have hjoined := Assoc.ofPairs_forall₂_keyed
      (fun op v w => stageBody .storage op v = .ok w) hencoded
    rw [Assoc.ofPairs_of_nodup (nodup_keys_fields es)] at hjoined
    rw [Value.object, body?, Value.fields_object]
    exact exists_of_rel_some
      (Assoc.find?_forall₂ (fun op v w => stageBody .storage op v = .ok w) hjoined op) hbody
  | _ => cases hbody

/-- Added fields keep their names. -/
theorem exists_added {op : String} (hop : op ∈ ["$group", "$addFields"])
    {es : List (Value × Value)} (huntagged : isTaggedObject es = false) {w : Value}
    (h : stageBody .storage op (.map es) = .ok w) :
    ∃ fs, w = .map fs ∧ Assoc.keys (Value.fields fs) = Assoc.keys (Value.fields es) := by
  have hexpression : expression .storage (.map es) = .ok w := by
    simp only [List.mem_cons, List.not_mem_nil, or_false] at hop
    obtain rfl | rfl := hop <;> exact h
  obtain ⟨fs, rfl, _, hfields⟩ := exists_of_expression_map huntagged hexpression
  exact ⟨fs, rfl, (Assoc.keys_of_forall₂ hfields fun _ _ hef => hef.1).symm⟩

theorem exists_of_projection {es : List (Value × Value)} {w : Value}
    (h : stageBody .storage "$project" (.map es) = .ok w) :
    ∃ fields, w = .object (Assoc.ofPairs fields) ∧
      List.Forall₂ (fun e f => projectedName e.1 e.2 = f.1 ∧ expression .storage e.2 = .ok f.2)
        es fields := by
  obtain ⟨_, hes, h⟩ := exists_of_bind_eq_ok h
  cases hes
  obtain ⟨fields, hfields, h⟩ := exists_of_bind_eq_ok h
  cases h
  refine ⟨fields, rfl, (mapM_eq_ok_iff.mp hfields).imp fun e f hef => ?_⟩
  obtain ⟨w, hw, hf⟩ := exists_of_bind_eq_ok hef
  cases hf
  exact ⟨rfl, hw⟩

/-- An entry of a projection that is no flag keeps its name. -/
theorem exists_projected {es : List (Value × Value)}
    (hnames : (es.map fun e => projectedName e.1 e.2).Nodup) {w : Value}
    (h : stageBody .storage "$project" (.map es) = .ok w) {name : String} {spec : Value}
    (hspec : Assoc.find? name (Value.fields es) = some spec) (hcomputed : isFlag spec = false) :
    ∃ fs w', w = .map fs ∧ Assoc.find? name (Value.fields fs) = some w' ∧
      expression .storage spec = .ok w' := by
  obtain ⟨fields, rfl, hfields⟩ := exists_of_projection h
  have hkeys : List.Forall₂ (· = ·) (es.map fun e => projectedName e.1 e.2)
      (Assoc.keys fields) := by
    rw [Assoc.keys, List.forall₂_map_left_iff, List.forall₂_map_right_iff]
    exact hfields.imp fun _ _ hef => hef.1
  rw [List.forall₂_eq_eq_eq] at hkeys
  have hnodup : (Assoc.keys fields).Nodup := hkeys ▸ hnames
  obtain ⟨e, he, hname⟩ := List.mem_map.mp
    (Assoc.mem_of_mem_ofPairs (Assoc.mem_of_find?_eq_some hspec))
  obtain ⟨rfl, rfl⟩ := Prod.mk.inj hname
  obtain ⟨f, hf, hfname, hfspec⟩ := exists_mem_of_forall₂ hfields he
  simp only [projectedName, hcomputed, Bool.false_eq_true, if_false] at hfname
  refine ⟨_, f.2, rfl, ?_, hfspec⟩
  rw [Value.fields_object, Assoc.ofPairs_of_nodup hnodup, Assoc.ofPairs_of_nodup hnodup,
    Assoc.find?_eq_some_iff hnodup, hfname]
  exact hf

/-! ## References -/

/-- A reference survives exactly when its first step is not respelled. -/
theorem refersAt_encoded_iff {steps : List Step} {v w : Value} {name : String}
    (h : expression .storage v = .ok w) (hplace : RefersAt steps v name) :
    RefersAt steps w name ↔ firstStep name ∉ respelled := by
  obtain ⟨path, hpath, hfrom⟩ := hplace
  obtain ⟨y, hy, hencoded⟩ := exists_expressionAt? h hpath
  cases hencoded
  rw [reference_path] at hy
  rw [← FieldName.isPathFrom_storedPath_iff hfrom]
  constructor
  · rintro ⟨path', hpath', hfrom'⟩
    rw [hy, Option.some.injEq, Value.text.injEq, String.append_right_inj] at hpath'
    rwa [hpath']
  · exact fun hstored => ⟨_, hy, hstored⟩

/-- What holds a reference is no flag. -/
theorem RefersAt.isFlag {steps : List Step} {v : Value} {name : String}
    (h : RefersAt steps v name) : isFlag v = false := by
  obtain ⟨path, hpath, _⟩ := h
  cases steps with
  | nil =>
    cases hpath
    rfl
  | cons step steps =>
    cases v with
    | map es | list xs | tuple xs => rfl
    | _ => cases step <;> cases hpath

/-- A sort key survives exactly when it is not respelled. -/
theorem exists_sorted {es : List (Value × Value)} {w : Value} {name : String}
    (h : stageBody .storage "$sort" (.map es) = .ok w)
    (hname : name ∈ Assoc.keys (Value.fields es)) :
    ∃ fs, w = .map fs ∧ (name ∈ Assoc.keys (Value.fields fs) ↔ name ∉ respelled) := by
  cases h
  refine ⟨_, rfl, ?_⟩
  rw [Value.fields_object, Assoc.mem_keys_ofPairs, Assoc.mem_keys_ofPairs, Assoc.keys, List.map_map]
  rw [Value.fields, Assoc.mem_keys_ofPairs, Assoc.keys, Value.textEntries, List.map_map] at hname
  constructor
  · intro hkey
    obtain ⟨e, _, rfl⟩ := List.mem_map.mp hkey
    exact FieldName.toStorage_not_mem_respelled _
  · intro hsame
    obtain ⟨e, he, hkey⟩ := List.mem_map.mp hname
    refine List.mem_map.mpr ⟨e, he, ?_⟩
    show FieldName.toStorage e.1.keyText = name
    rw [show e.1.keyText = name from hkey, FieldName.toStorage_eq_self_iff.mpr hsame]

/-! ## Stages -/

section Stages

variable {s d : Value} {name : String} (h : stage .storage s = .ok d) (hclear : IsClear s)

include h hclear

/-- A computed field keeps its name. -/
theorem Defines.encoded (hdefines : Defines s name) : Defines d name := by
  cases hdefines with
  | @added op es hop hbody hname =>
    obtain ⟨w, hw, hstage⟩ := exists_body? h hbody
    obtain ⟨fs, rfl, hkeys⟩ := exists_added hop (hclear.untagged op hop es hbody) hstage
    exact .added hop hw (hkeys ▸ hname)
  | @projected es spec hbody hspec hcomputed =>
    obtain ⟨w, hw, hstage⟩ := exists_body? h hbody
    obtain ⟨fs, w', rfl, hfound, hencoded⟩ :=
      exists_projected (hclear.names es hbody) hstage hspec hcomputed
    refine .projected hw hfound ?_
    obtain rfl | hmade := eq_or_isMade hencoded
    · exact hcomputed
    · exact hmade.isFlag

/-- A use of a field survives exactly when the part of its name is kept that is respelled
    for it. -/
theorem Refers.encoded_iff {use : Use} (hrefers : Refers s name use) :
    Refers d name use ↔ use.spelled name ∉ respelled := by
  cases hrefers with
  | sortKey hbody hname =>
    obtain ⟨w, hw, hstage⟩ := exists_body? h hbody
    obtain ⟨fs, rfl, hiff⟩ := exists_sorted hstage hname
    refine Iff.trans ⟨?_, .sortKey hw⟩ hiff
    rintro ⟨hbody', hname'⟩
    cases hw.symm.trans hbody'
    exact hname'
  | @reference op steps body hop hbody hplace =>
    obtain ⟨w, hw, hstage⟩ := exists_body? h hbody
    have hexpression : expression .storage body = .ok w := by
      simp only [List.mem_cons, List.not_mem_nil, or_false] at hop
      obtain rfl | rfl | rfl := hop <;> exact hstage
    refine Iff.trans ⟨?_, .reference hop hw⟩ (refersAt_encoded_iff hexpression hplace)
    intro hkept
    cases hkept with
    | reference _ hbody' hplace' =>
      cases hw.symm.trans hbody'
      exact hplace'
  | @projection field steps es spec hbody hspec hplace =>
    obtain ⟨w, hw, hstage⟩ := exists_body? h hbody
    obtain ⟨fs, w', rfl, hfound, hencoded⟩ :=
      exists_projected (hclear.names es hbody) hstage hspec hplace.isFlag
    refine Iff.trans ⟨?_, .projection hw hfound⟩ (refersAt_encoded_iff hencoded hplace)
    intro hkept
    cases hkept with
    | projection hbody' hspec' hplace' =>
      cases hw.symm.trans hbody'
      cases hfound.symm.trans hspec'
      exact hplace'

end Stages

/-! ## Pipelines -/

/-- In a pipeline that is encoded for the store, a stage keeps the name of each field that it
    makes, and another stage goes on referring to it by that name exactly when what is
    respelled for the reference is no system field. It does not matter in which order the
    two stages stand, nor what stands between them. -/
theorem uses_of_computed {stages docs : List Value}
    (hdocs : pipeline .storage (.list stages) = .ok docs) {i j : Nat} {s t : Value}
    (hs : stages[i]? = some s) (ht : stages[j]? = some t) (hsclear : IsClear s)
    (htclear : IsClear t) {name : String} {use : Use} (hdefines : Defines s name)
    (hrefers : Refers t name use) :
    ∃ d e, docs[i]? = some d ∧ docs[j]? = some e ∧ Defines d name ∧
      (Refers e name use ↔ use.spelled name ∉ ["objectId", "createdAt", "updatedAt"]) := by
  have hstages : List.Forall₂ (fun s d => stage .storage s = .ok d) stages docs :=
    mapM_eq_ok_iff.mp hdocs
  obtain ⟨d, hd, hsd⟩ := exists_getElem?_of_forall₂ hstages hs
  obtain ⟨e, he, hte⟩ := exists_getElem?_of_forall₂ hstages ht
  exact ⟨d, e, hd, he, hdefines.encoded hsd hsclear, hrefers.encoded_iff hte htclear⟩

/-- A sort by a count goes on sorting by it. -/
theorem uses_of_computed_count :
    let counts : Value := Stage.single "$group" (.object [("_id", .text "$genre"),
      ("plays", Stage.single "$sum" (.int 1))])
    let sort : Value := Stage.single "$sort" (.object [("plays", .int (-1))])
    Defines counts "plays" ∧ Refers sort "plays" .sortKey ∧ IsClear counts ∧ IsClear sort ∧
      ∃ docs d e, pipeline .storage (.list [counts, sort]) = .ok docs ∧
        docs[0]? = some d ∧ docs[1]? = some e ∧ Defines d "plays" ∧
          Refers e "plays" .sortKey := by
  intro counts sort
  have hdefines : Defines counts "plays" :=
    .added (List.mem_cons_self : "$group" ∈ ["$group", "$addFields"]) rfl (by decide)
  have hrefers : Refers sort "plays" .sortKey := .sortKey rfl (by decide)
  have hcounts : IsClear counts := by
    refine ⟨fun op hop es hes => ?_, fun es hes => by cases hes⟩
    simp only [List.mem_cons, List.not_mem_nil, or_false] at hop
    obtain rfl | rfl := hop
    · cases hes
      rfl
    · cases hes
  have hsort : IsClear sort := by
    refine ⟨fun op hop es hes => ?_, fun es hes => by cases hes⟩
    simp only [List.mem_cons, List.not_mem_nil, or_false] at hop
    obtain rfl | rfl := hop <;> cases hes
  have hfirst : [counts, sort][0]? = some counts := rfl
  have hsecond : [counts, sort][1]? = some sort := rfl
  obtain ⟨d, e, hd, he, hkept, hiff⟩ :=
    uses_of_computed rfl hfirst hsecond hcounts hsort hdefines hrefers
  exact ⟨hdefines, hrefers, hcounts, hsort, _, d, e, rfl, hd, he, hkept, hiff.mpr (by decide)⟩

/-- A sort by a computed creation time is respelled as if it were the stored one. -/
theorem computed_creation_lost :
    let latest : Value := Stage.single "$group" (.object [("_id", .text "$genre"),
      ("createdAt", Stage.single "$max" (.text "$createdAt"))])
    let sort : Value := Stage.single "$sort" (.object [("createdAt", .int (-1))])
    Defines latest "createdAt" ∧ Refers sort "createdAt" .sortKey ∧
      ∃ d e, pipeline .storage (.list [latest, sort]) = .ok [d, e] ∧
        Defines d "createdAt" ∧ ¬ Refers e "createdAt" .sortKey := by
  intro latest sort
  have hgroup : "$group" ∈ ["$group", "$addFields"] := List.mem_cons_self
  refine ⟨.added hgroup rfl (by decide), .sortKey rfl (by decide), _, _, rfl,
    .added hgroup rfl (by decide), ?_⟩
  rintro ⟨hbody, hname⟩
  cases hbody
  exact absurd hname (by decide)

end DocQuery.Encoding
