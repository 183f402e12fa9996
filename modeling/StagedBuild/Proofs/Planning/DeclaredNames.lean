import StagedBuild.PackageManifest
import StagedBuild.Proofs.FileTree.Changes
import StagedBuild.Proofs.Json.RecordReading
import StagedBuild.Proofs.Planning.Externals

/-!
# The names that a manifest declares

A manifest declares the names that stand in the object below `dependencies`. What stands beside these
names, how often and in which order they stand, and what other members the manifest has makes no
difference, as long as the manifest is accepted.

## Main definitions

* `JsonSyntax.NamedBelow`: a name stands in an object below a member.

## Main results

* `JsonSyntax.mem_values_iff`: the members of an object's value are those that are written.
* `PackageManifest.mem_dependencies?_iff`: the names that an accepted manifest declares.
* `PackageManifest.declares_names_below_dependencies`: manifests with the same names declare the same,
  and the server leaves out these names besides what the runtime provides.
-/

namespace StagedBuild

-- ════════════════════════════════════════════════════════════════════════
-- Objects and their members
-- ════════════════════════════════════════════════════════════════════════

namespace JsonSyntax

variable {members : List (Option String × JsonSyntax)} {values : List (String × Json)} {depth : Nat}

/-- The name stands in an object that is written below a member. -/
def NamedBelow (members : List (Option String × JsonSyntax)) (member name : String) : Prop :=
  ∃ below value, (some member, object below) ∈ members ∧ (some name, value) ∈ below

theorem mem_values_iff (h : members.mapM (memberValue? depth) = some values) {name : String}
    {json : Json} :
    (name, json) ∈ values ↔ ∃ tree, (some name, tree) ∈ members ∧ tree.value depth = json := by
  rw [Traversal.mem_mapM_iff h]
  constructor
  · rintro ⟨⟨written, tree⟩, hmem, hvalue⟩
    obtain ⟨text, rfl, heq⟩ := Option.map_eq_some_iff.1 hvalue
    cases heq
    exact ⟨tree, hmem, rfl⟩
  · rintro ⟨tree, hmem, rfl⟩
    exact ⟨_, hmem, rfl⟩

/-- Only an object has the value of an object, and then all of its names have a text. -/
theorem value_eq_object {tree : JsonSyntax} (h : tree.value depth = .object values) :
    ∃ members, tree = object members ∧ members.mapM (memberValue? (depth + 1)) = some values := by
  cases tree with
  | number n =>
    rw [value] at h
    split at h
    · cases hnatural : n.natural? <;> simp [hnatural] at h
    · cases h
  | string s => cases s <;> cases h
  | array items =>
    rw [value, JsonReader.sealed] at h
    split at h <;> cases h
  | object members =>
    rw [value_object] at h
    cases hvalues : members.mapM (memberValue? (depth + 1)) with
    | none =>
      rw [hvalues] at h
      cases h
    | some others =>
      rw [hvalues, objectValue, JsonReader.sealed] at h
      split at h
      · cases h
        exact ⟨members, rfl, hvalues⟩
      · cases h
  | _ => cases h

end JsonSyntax

namespace Json

/-- A field that an object gives has the value of the member with its name. -/
theorem lookup_fields?_object {names : List String} {members : List (String × Json)}
    {fields : Fields} (h : fields? .json names (.object members) = some fields) {name : String}
    (hname : name ∈ names) {json : Json} :
    fields.lookup name = some json ↔ (name, json) ∈ members := by
  rw [fields?_object_json] at h
  split at h
  · next hnodup =>
    obtain rfl := Option.some.inj h
    rw [lookup_eq_some_iff_mem hnodup, known, List.mem_filter]
    exact and_iff_left (List.contains_iff_mem.2 hname)
  · cases h

end Json

-- ════════════════════════════════════════════════════════════════════════
-- Manifests
-- ════════════════════════════════════════════════════════════════════════

namespace PackageManifest

open JsonSyntax (Spells NamedBelow)

variable {text : String} {members : List (Option String × JsonSyntax)} {names : NameSet}

/-- In an accepted manifest there is nothing below `dependencies`, or one object. -/
theorem dependencies?_of_object {values : List (String × Json)}
    (hparse : Json.parse? text = some (.object values)) (h : dependencies? text = some names) :
    ((∀ json, ("dependencies", json) ∉ values) ∧ names = .empty) ∨
    ∃ below, (∀ json, ("dependencies", json) ∈ values ↔ json = .object below) ∧
      names = .ofList (below.map (·.1)) := by
  rw [dependencies?, hparse, Option.bind_eq_bind, Option.bind_some] at h
  obtain ⟨fields, hfields, h⟩ := Option.bind_eq_some_iff.1 h
  obtain ⟨entries, hentries, h⟩ := Option.bind_eq_some_iff.1 h
  obtain rfl := Option.some.inj h
  have hlookup (json : Json) : fields.lookup "dependencies" = some json ↔ _ :=
    Json.lookup_fields?_object hfields (List.mem_singleton_self _)
  cases hvalue : fields.lookup "dependencies" with
  | none =>
    rw [Fields.withDefault, hvalue] at hentries
    obtain rfl := Option.some.inj hentries
    refine .inl ⟨fun json hmem => ?_, rfl⟩
    cases hvalue.symm.trans ((hlookup json).2 hmem)
  | some value =>
    rw [Fields.withDefault, hvalue] at hentries
    cases value with
    | object below =>
      refine .inr ⟨below, fun json => ?_, by rw [Json.Respects.names_of_mapOf? hentries]⟩
      rw [← hlookup, hvalue, Option.some.injEq, eq_comm]
    | _ => cases hentries

/-- The names that an accepted manifest declares, if it is an object. -/
theorem mem_dependencies?_iff (hspells : Spells text (.object members))
    (h : dependencies? text = some names) {name : String} :
    name ∈ names ↔ NamedBelow members "dependencies" name := by
  have hparse := JsonSyntax.parse?_of_spells hspells
  rw [JsonSyntax.value_object] at hparse
  -- a manifest that has a name without text is not accepted
  cases hvalues : members.mapM (JsonSyntax.memberValue? 1) with
  | none =>
    rw [hvalues] at hparse
    rw [dependencies?, hparse] at h
    cases h
  | some values =>
    rw [hvalues] at hparse
    obtain ⟨hnone, rfl⟩ | ⟨deps, hdeps, rfl⟩ := dependencies?_of_object hparse h
    · refine iff_of_false NameSet.notMem_empty ?_
      rintro ⟨below, value, hbelow, -⟩
      exact hnone _ ((JsonSyntax.mem_values_iff hvalues).2 ⟨_, hbelow, rfl⟩)
    · have hnames : ∀ below, (some "dependencies", JsonSyntax.object below) ∈ members →
          deps.map (·.1) = below.filterMap (·.1) := by
        intro below hbelow
        have hvalue := (hdeps _).1 ((JsonSyntax.mem_values_iff hvalues).2 ⟨_, hbelow, rfl⟩)
        obtain ⟨_, heq, hinner⟩ := JsonSyntax.value_eq_object hvalue
        cases heq
        exact JsonSyntax.names_of_values hinner
      obtain ⟨tree, hmem, hvalue⟩ := (JsonSyntax.mem_values_iff hvalues).1 ((hdeps _).2 rfl)
      obtain ⟨written, rfl, -⟩ := JsonSyntax.value_eq_object hvalue
      rw [NameSet.mem_ofList]
      constructor
      · intro hname
        rw [hnames written hmem] at hname
        obtain ⟨⟨_, value⟩, hvalue, rfl⟩ := List.mem_filterMap.1 hname
        exact ⟨written, value, hmem, hvalue⟩
      · rintro ⟨below, value, hbelow, hname⟩
        rw [hnames below hbelow]
        exact List.mem_filterMap.2 ⟨_, hname, rfl⟩

theorem dependencies?_of_declaredIn {tree : FileTree} {root : String}
    (hread : tree.read (Path.join root fileName) = .ok text)
    (h : declaredIn tree root = .ok names) : dependencies? text = some names := by
  rw [declaredIn, declaredAt, if_pos (FileTree.isFile_of_read hread), hread] at h
  cases hnames : dependencies? text with
  | none => simp [hnames] at h
  | some others =>
    simp only [hnames, Except.ok.injEq] at h
    rw [h]

/-- An accepted manifest that is an object declares the names that stand in the object below its
member `dependencies`, in the order of their code points. So two such manifests declare the same names
exactly when the same names stand there, with whatever values, order and repetition, and whatever else
the manifests hold. In every plan for what a project declares, the server leaves out these names and
what the runtime provides, and so no name that stands below another member only, unless the runtime
provides it. -/
theorem declares_names_below_dependencies [PatternCompiler] :
    (∀ text members names, Spells text (.object members) → dependencies? text = some names →
      names.names.Pairwise (fun a b => Text.codePoints a < Text.codePoints b) ∧
      ∀ name, name ∈ names.names ↔ NamedBelow members "dependencies" name) ∧
    (∀ text members names other otherMembers otherNames,
      Spells text (.object members) → dependencies? text = some names →
      Spells other (.object otherMembers) → dependencies? other = some otherNames →
      (names = otherNames ↔ ∀ name, NamedBelow members "dependencies" name ↔
        NamedBelow otherMembers "dependencies" name)) ∧
    ∀ (tree : FileTree) root text members declared,
      tree.read (Path.join root fileName) = .ok text → Spells text (.object members) →
      declaredIn tree root = .ok declared →
      ∀ (settings : Settings) stages env request plan pipeline,
        { settings with declared }.planRequested stages env request = .ok plan →
        plan.pipelines.get? .server = some pipeline →
        ∀ name, name ∈ pipeline.externals.names ↔
          NamedBelow members "dependencies" name ∨ name ∈ settings.hostBuiltins.names := by
  refine ⟨?_, ?_, ?_⟩
  · intro text members names hspells h
    exact ⟨names.increasing.imp Text.lt_iff_codePoints.1, fun _ => mem_dependencies?_iff hspells h⟩
  · intro text members names other otherMembers otherNames hspells h hother hotherNames
    constructor
    · rintro rfl name
      rw [← mem_dependencies?_iff hspells h, mem_dependencies?_iff hother hotherNames]
    · intro hsame
      apply NameSet.ext_mem
      intro name
      rw [mem_dependencies?_iff hspells h, hsame, mem_dependencies?_iff hother hotherNames]
  · intro tree root text members declared hread hspells hdeclared settings stages env request plan
      pipeline hplan hget name
    have hnames : dependencies? text = some declared := dependencies?_of_declaredIn hread hdeclared
    have hexternals := Externals.externals_of_planRequested hplan hget
    rw [← mem_dependencies?_iff hspells hnames, hexternals]
    exact Externals.mem_forTarget_iff.trans (and_iff_right rfl)

-- two manifests with the same dependencies: the second lists one of them twice, in another order and
-- with other values, and each has another member of its own

def shortMembers : List (String × Json) :=
  [("dependencies", .object [("polka", .string "^1"), ("sirv", .array [.natural 1])]),
    ("devDependencies", .object [("svelte", .string "^4")])]

def longMembers : List (String × Json) :=
  [("scripts", .object [("fs", .null), ("polka", .null)]),
    ("dependencies", .object [("sirv", .bool true), ("polka", .null), ("sirv", .natural 2)])]

def shortProject : FileTree :=
  (FileTree.standingAt ["app"]).set ["app", fileName] (.file (Json.object shortMembers).compact)

theorem declares_names_twice :
    (∃ names, dependencies? (Json.object shortMembers).compact = some names ∧
      dependencies? (Json.object longMembers).compact = some names ∧ "sirv" ∈ names.names ∧
      "svelte" ∉ names.names) ∧
    ∃ declared plan pipeline, declaredIn shortProject "/app" = .ok declared ∧
      { Settings.forRoot "/app" with declared }.planRequested Schedule.defaultStages
        ⟨.production, false, true, false⟩ none = .ok plan ∧
      plan.pipelines.get? .server = some pipeline ∧
      "sirv" ∈ pipeline.externals.names ∧ "svelte" ∉ pipeline.externals.names := by
  have hshort : Spells (Json.object shortMembers).compact (.object (Json.memberTrees shortMembers)) :=
    Json.spells_compact _
  have hlong : Spells (Json.object longMembers).compact (.object (Json.memberTrees longMembers)) :=
    Json.spells_compact _
  have hshortNames : ∀ name, NamedBelow (Json.memberTrees shortMembers) "dependencies" name ↔
      name = "polka" ∨ name = "sirv" := by
    intro name
    simp [NamedBelow, shortMembers, Json.memberTrees, Json.tree, exists_or]
  have hlongNames : ∀ name, NamedBelow (Json.memberTrees longMembers) "dependencies" name ↔
      name = "sirv" ∨ name = "polka" ∨ name = "sirv" := by
    intro name
    simp [NamedBelow, longMembers, Json.memberTrees, Json.tree, exists_or]
  have hnames : dependencies? (Json.object shortMembers).compact =
      some (.ofList ["polka", "sirv"]) := by decide +kernel
  have hotherNames : dependencies? (Json.object longMembers).compact =
      some (.ofList ["sirv", "polka", "sirv"]) := by decide +kernel
  have hread : shortProject.read (Path.join "/app" fileName) =
      .ok (Json.object shortMembers).compact := by decide +kernel
  have hdeclared : declaredIn shortProject "/app" = .ok (.ofList ["polka", "sirv"]) := by
    rw [declaredIn, declaredAt, if_pos (FileTree.isFile_of_read hread), hread]
    simp only [hnames]
  have hplan : { Settings.forRoot "/app" with declared := .ofList ["polka", "sirv"] }.planRequested
      Schedule.defaultStages ⟨.production, false, true, false⟩ none = .ok _ :=
    Settings.planTargets_of_sound ⟨by decide +kernel, by decide +kernel⟩ (by decide +kernel) _
  obtain ⟨hdeclares, hsame, hplans⟩ := declares_names_below_dependencies
  obtain ⟨-, hmem⟩ := hdeclares _ _ _ hshort hnames
  have heq := (hsame _ _ _ _ _ _ hshort hnames hlong hotherNames).2 fun name => by
    rw [hshortNames, hlongNames]
    exact ⟨.inr, fun hname => hname.elim .inr id⟩
  have hexternals := hplans _ _ _ _ _ hread hshort hdeclared _ _ _ _ _ _ hplan rfl
  refine ⟨⟨_, hnames, hotherNames.trans (congrArg some heq.symm), ?_, ?_⟩, _, _, _, hdeclared, hplan,
    rfl, ?_, ?_⟩
  · rw [hmem, hshortNames]
    exact .inr rfl
  · rw [hmem, hshortNames]
    decide
  · rw [hexternals, hshortNames]
    exact .inl (.inr rfl)
  · rw [hexternals, hshortNames]
    have hprovided : "svelte" ∉ HostBuiltins.node20.names := by
      rw [HostBuiltins.node20, NameSet.mem_ofList]
      decide +kernel
    exact not_or.2 ⟨by decide, hprovided⟩

end PackageManifest
end StagedBuild
