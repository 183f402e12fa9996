import StagedBuild.Configuration
import StagedBuild.Execution.Artifact
import StagedBuild.PackageManifest
import StagedBuild.Plan
import StagedBuild.Proofs.Json.RecordReading
import StagedBuild.Proofs.Json.RoundTrip

/-!
# Documents are read as records

Whatever is read from a JSON text is read alike when the text is rearranged. Each type has a shape,
which says where its records are and what their fields hold, and the type's reader respects it. So
does the reader of a plan, which has all the others inside.

## Main definitions

* `Environment.shape`, …, `Plan.shape`: the shapes of the documents.
* `StageOptions.fieldShapes`: the fields of the options of each stage.

## Main results

* `StageOptions.respects_ofFields?`: the fields of options are those of a record.
* `Document.ofText?_rearranged`: what is read from a text and from the text rearranged.
-/

namespace StagedBuild

open Json (Respects respects_record)

-- ════════════════════════════════════════════════════════════════════════
-- Shapes
-- ════════════════════════════════════════════════════════════════════════

def Environment.shape : JsonShape :=
  .record [("mode", .plain), ("legacy_build", .plain), ("is_browser", .plain), ("typescript", .plain)]

def AliasEntry.shape : JsonShape :=
  .record [("symbolic_name", .plain), ("physical_path", .plain)]

def EntryPoint.shape : JsonShape :=
  .record [("input", .plain), ("output", .plain)]

def DiagnosticPolicy.shape : JsonShape :=
  .record [("code", .plain), ("namespace", .plain)]

def Diagnostic.shape : JsonShape :=
  .record [("code", .plain), ("message", .plain)]

namespace StageOptions

/-- The fields of the options of a stage. -/
def fieldShapes : StageId → List (String × JsonShape)
  | .aliasResolution => [("entries", .list AliasEntry.shape), ("extensions", .list .plain)]
  | .envSubstitution => [("replacements", .map .plain)]
  | .componentCompilation =>
    [("generate", .plain), ("dev", .plain), ("hydratable", .plain), ("emit_css", .plain),
      ("preprocess_typescript", .plain)]
  | .moduleResolution => [("browser", .plain), ("dedupe", .plain)]
  | .interopNormalization => []
  | .typedSource => [("check", .plain)]
  | .legacyDownlevel =>
    [("extensions", .list .plain), ("runtime_helpers", .plain), ("exclude", .list .plain),
      ("browserslist", .plain), ("plugins", .list .plain)]
  | .minification => [("module", .plain)]

def shape : JsonShape :=
  .tagged (StageId.all.map fun id => (id.key, fieldShapes id))

end StageOptions

def Stage.shape : JsonShape :=
  .record [("id", .plain), ("ordinal", .plain), ("options", StageOptions.shape)]

def Pipeline.shape : JsonShape :=
  .record [("target", .plain), ("entry", EntryPoint.shape), ("stages", .list Stage.shape),
    ("external_dependencies", .list .plain), ("diagnostics", DiagnosticPolicy.shape)]

def Plan.shape : JsonShape :=
  .record [("schema", .plain), ("env", Environment.shape), ("aliases", .list AliasEntry.shape),
    ("pipelines", .map Pipeline.shape)]

def ModuleGraph.shape : JsonShape :=
  .record [("entry", .plain), ("modules", .map .plain)]

def Artifact.shape : JsonShape :=
  .record [("target", .plain), ("output", .plain), ("graph", ModuleGraph.shape)]

/-- The values below `dependencies` may be anything. -/
def PackageManifest.shape : JsonShape :=
  .record [("dependencies", .map .plain)]

namespace Configuration

def aliasShape : JsonShape :=
  .record [("find", .plain), ("replacement", .plain)]

def resolveShape : JsonShape :=
  .record [("extensions", .list .plain), ("dedupe", .plain)]

def diagnosticsShape : JsonShape :=
  .record [("framework_namespace", .plain), ("circular_code", .plain)]

def runtimeShape : JsonShape :=
  .record [("name", .plain), ("version", .plain), ("builtins", .list .plain)]

def buildShape : JsonShape :=
  .record [("typescript", .plain)]

def shape : JsonShape :=
  .record [("alias", .list aliasShape), ("resolve", resolveShape),
    ("diagnostics", diagnosticsShape), ("runtime", runtimeShape), ("build", buildShape),
    ("entries", .map EntryPoint.shape)]

end Configuration

-- ════════════════════════════════════════════════════════════════════════
-- Values and collections
-- ════════════════════════════════════════════════════════════════════════

namespace Document

variable {α : Type} [Document α] {shape : JsonShape}

theorem respects_string : Respects .plain (ofJson? : Json → Option String) :=
  Json.respects_string?

theorem respects_word : Respects .plain (ofJson? : Json → Option UInt32) :=
  Json.respects_word?

theorem respects_texts : Respects (.list .plain) (ofJson? : Json → Option (List String)) :=
  respects_string.list

theorem respects_list (h : Respects shape (ofJson? : Json → Option α)) :
    Respects (.list shape) (ofJson? : Json → Option (List α)) :=
  h.list

theorem respects_nameSet : Respects (.list .plain) (ofJson? : Json → Option NameSet) :=
  Json.respects_string?.list.map_result NameSet.ofList

theorem respects_nameMap (h : Respects shape (ofJson? : Json → Option α)) :
    Respects (.map shape) (ofJson? : Json → Option (NameMap α)) := by
  apply h.map fun _ => Option.map_eq_bind
  intro entries others hperm hnodup
  rw [Function.comp_apply, Function.comp_apply, NameMap.ofList_eq_of_perm hperm hnodup]

omit [Document α] in
/-- Different names of targets stand for different targets. -/
theorem nodup_targets {entries : List (String × α)} {values : List (Target × α)}
    (h : entries.mapM (fun entry => (·, entry.2) <$> Target.ofName? entry.1) = some values)
    (hnodup : (entries.map (·.1)).Nodup) : (values.map (·.1)).Nodup := by
  have hnames : values.map (fun value => value.1.name) = entries.map (·.1) := by
    apply Traversal.map_eq_map_of_mapM h
    intro entry value hvalue
    obtain ⟨target, htarget, rfl⟩ := Option.map_eq_some_iff.1 hvalue
    exact of_decide_eq_true (List.find?_some htarget :)
  have hmap : (values.map (·.1)).map Target.name = entries.map (·.1) := by
    rw [← hnames, List.map_map]
    rfl
  exact List.Nodup.of_map Target.name (hmap ▸ hnodup)

theorem respects_targetMap (h : Respects shape (ofJson? : Json → Option α)) :
    Respects (.map shape) (ofJson? : Json → Option (TargetMap α)) := by
  apply h.map fun _ => rfl
  intro entries others hperm hnodup
  have hrel := Traversal.mapM_perm (f := fun entry : String × α =>
    (·, entry.2) <$> Target.ofName? entry.1) hperm
  rw [Option.map_eq_map, Option.map_eq_bind, Option.map_eq_bind]
  apply Traversal.bind_eq_of_rel hrel
  intro values others hvalues hvaluesPerm
  rw [Function.comp_apply, Function.comp_apply,
    TargetMap.ofList_eq_of_perm hvaluesPerm (nodup_targets hvalues hnodup)]

-- ════════════════════════════════════════════════════════════════════════
-- Keywords and flat records
-- ════════════════════════════════════════════════════════════════════════

theorem respects_mode : Respects .plain (ofJson? : Json → Option Mode) :=
  Json.respects_keyword?

theorem respects_target : Respects .plain (ofJson? : Json → Option Target) :=
  Json.respects_keyword?

theorem respects_stageId : Respects .plain (ofJson? : Json → Option StageId) :=
  Json.respects_keyword?

theorem respects_environment :
    Respects Environment.shape (ofJson? : Json → Option Environment) := by
  apply respects_record fun _ => rfl
  intro xs ys h
  rw [h.required "mode" rfl respects_mode, h.required "legacy_build" rfl Json.respects_bool?,
    h.required "is_browser" rfl Json.respects_bool?,
    h.withDefault "typescript" rfl Json.respects_bool?]

/-- A record of two texts. -/
theorem respects_two_texts {first second : String} {make : String → String → α}
    (hofJson? : ∀ json : Json, ofJson? json =
      (json.fields? .json [first, second]).bind fun fields =>
        (fields.required first Json.string?).bind fun a =>
          (fields.required second Json.string?).bind fun b => some (make a b)) :
    Respects (.record [(first, .plain), (second, .plain)]) (ofJson? : Json → Option α) := by
  apply respects_record hofJson?
  intro xs ys h
  have hsecond : [(first, JsonShape.plain), (second, .plain)].lookup second = some .plain := by
    cases hname : second == first <;> simp [List.lookup_cons, hname]
  rw [h.required first (by simp) Json.respects_string?,
    h.required second hsecond Json.respects_string?]

theorem respects_aliasEntry : Respects AliasEntry.shape (ofJson? : Json → Option AliasEntry) :=
  respects_two_texts fun _ => rfl

theorem respects_entryPoint : Respects EntryPoint.shape (ofJson? : Json → Option EntryPoint) :=
  respects_two_texts fun _ => rfl

theorem respects_diagnosticPolicy :
    Respects DiagnosticPolicy.shape (ofJson? : Json → Option DiagnosticPolicy) :=
  respects_two_texts fun _ => rfl

theorem respects_diagnostic : Respects Diagnostic.shape (ofJson? : Json → Option Diagnostic) :=
  respects_two_texts fun _ => rfl

end Document

-- ════════════════════════════════════════════════════════════════════════
-- Options of a stage
-- ════════════════════════════════════════════════════════════════════════

namespace StageOptions

open Document

theorem respects_output : Respects .plain ComponentOutput.ofJson? := by
  apply Json.respects_of_words
  intro json h
  unfold ComponentOutput.ofJson?
  split
  · cases h
  · rw [Json.keyword?_eq_none h, Option.bind_none]

/-- The options of a stage are a record with the fields of that stage. -/
theorem respects_ofFields? (id : StageId) :
    Respects (.record (fieldShapes id)) (ofFields? id) := by
  cases id with
  | aliasResolution =>
    apply respects_record fun _ => rfl
    intro xs ys h
    rw [h.required "entries" rfl (respects_list respects_aliasEntry),
      h.required "extensions" rfl respects_texts]
  | envSubstitution =>
    apply respects_record fun _ => rfl
    intro xs ys h
    rw [h.required "replacements" rfl (respects_nameMap respects_string)]
  | componentCompilation =>
    apply respects_record fun _ => rfl
    intro xs ys h
    rw [h.required "generate" rfl respects_output, h.required "dev" rfl Json.respects_bool?,
      h.required "hydratable" rfl Json.respects_bool?, h.required "emit_css" rfl Json.respects_bool?,
      h.required "preprocess_typescript" rfl Json.respects_bool?]
  | moduleResolution =>
    apply respects_record fun _ => rfl
    intro xs ys h
    rw [h.required "browser" rfl Json.respects_bool?, h.optional "dedupe" rfl Json.respects_string?]
  | interopNormalization =>
    apply respects_record fun _ => Option.map_eq_bind
    intro _ _ _
    rfl
  | typedSource =>
    apply respects_record fun _ => rfl
    intro xs ys h
    rw [h.required "check" rfl Json.respects_bool?]
  | legacyDownlevel =>
    apply respects_record fun _ => rfl
    intro xs ys h
    rw [h.required "extensions" rfl respects_texts,
      h.required "runtime_helpers" rfl Json.respects_bool?, h.required "exclude" rfl respects_texts,
      h.required "browserslist" rfl Json.respects_string?, h.required "plugins" rfl respects_texts]
  | minification =>
    apply respects_record fun _ => rfl
    intro xs ys h
    rw [h.required "module" rfl Json.respects_bool?]

theorem lookup_fieldShapes {tag : String} {id : StageId} (h : StageId.ofKey? tag = some id) :
    (StageId.all.map fun id => (id.key, fieldShapes id)).lookup tag = some (fieldShapes id) := by
  obtain rfl : id.key = tag := of_decide_eq_true (List.find?_some h :)
  cases id <;> rfl

end StageOptions

namespace Document

theorem respects_stageOptions :
    Respects StageOptions.shape (ofJson? : Json → Option StageOptions) := by
  intro old new h
  show ((StageOptions.splitTag? old).bind fun split => (StageId.ofKey? split.1).bind fun id =>
      if old.isReadable then StageOptions.ofFields? id split.2 else none) =
    ((StageOptions.splitTag? new).bind fun split => (StageId.ofKey? split.1).bind fun id =>
      if new.isReadable then StageOptions.ofFields? id split.2 else none)
  rw [h.isReadable_eq]
  apply Traversal.bind_eq_of_rel (Json.splitTag?_rel h)
  rintro ⟨tag, fields⟩ ⟨_, fields'⟩ - ⟨rfl, hfields⟩
  cases hid : StageId.ofKey? tag with
  | none => rfl
  | some id =>
    rw [StageOptions.lookup_fieldShapes hid, Option.getD_some] at hfields
    have hread := (StageOptions.respects_ofFields? id).steps hfields
    simp only [Option.bind_some, hread]

-- ════════════════════════════════════════════════════════════════════════
-- Pipelines, plans and artifacts
-- ════════════════════════════════════════════════════════════════════════

theorem respects_stage : Respects Stage.shape (ofJson? : Json → Option Stage) := by
  apply respects_record fun _ => rfl
  intro xs ys h
  rw [h.required "id" rfl respects_stageId, h.required "ordinal" rfl respects_word,
    h.required "options" rfl respects_stageOptions]

theorem respects_pipeline : Respects Pipeline.shape (ofJson? : Json → Option Pipeline) := by
  apply respects_record fun _ => rfl
  intro xs ys h
  rw [h.required "target" rfl respects_target, h.optional "entry" rfl respects_entryPoint,
    h.withDefault "stages" rfl (respects_list respects_stage),
    h.withDefault "external_dependencies" rfl respects_nameSet,
    h.required "diagnostics" rfl respects_diagnosticPolicy]

theorem respects_plan : Respects Plan.shape (ofJson? : Json → Option Plan) := by
  apply respects_record fun _ => rfl
  intro xs ys h
  rw [h.required "schema" rfl Json.respects_string?, h.required "env" rfl respects_environment,
    h.withDefault "aliases" rfl (respects_list respects_aliasEntry),
    h.withDefault "pipelines" rfl (respects_targetMap respects_pipeline)]

theorem respects_moduleGraph : Respects ModuleGraph.shape (ofJson? : Json → Option ModuleGraph) := by
  apply respects_record fun _ => rfl
  intro xs ys h
  rw [h.required "entry" rfl Json.respects_string?,
    h.withDefault "modules" rfl (respects_nameMap respects_string)]

theorem respects_artifact : Respects Artifact.shape (ofJson? : Json → Option Artifact) := by
  apply respects_record fun _ => rfl
  intro xs ys h
  rw [h.required "target" rfl respects_target, h.optional "output" rfl Json.respects_string?,
    h.required "graph" rfl respects_moduleGraph]

end Document

-- ════════════════════════════════════════════════════════════════════════
-- Manifests and configurations
-- ════════════════════════════════════════════════════════════════════════

/-- Of the dependencies of a project only the names count. -/
theorem PackageManifest.respects_dependencies : Respects PackageManifest.shape fun json =>
    (json.fields? .json ["dependencies"]).bind fun fields =>
      (fields.withDefault "dependencies" [] (Json.mapOf? anyValue?)).bind fun entries =>
        some (NameSet.ofList (entries.map (·.1))) := by
  have hnames : Respects (.map .plain) fun json =>
      (fun entries => NameSet.ofList (entries.map (·.1))) <$> Json.mapOf? anyValue? json := by
    apply Json.respects_isReadable.map fun _ => Option.map_eq_bind
    intro entries others hperm _
    rw [Function.comp_apply, Function.comp_apply, NameSet.ofList_eq_of_perm (hperm.map (·.1))]
  apply respects_record fun _ => rfl
  intro xs ys h
  have hsets := h.map_withDefault "dependencies" rfl hnames []
  exact Option.map_eq_bind.symm.trans (hsets.trans Option.map_eq_bind)

namespace Configuration

theorem respects_alias? : Respects aliasShape (alias? .json) := by
  apply respects_record fun _ => rfl
  intro xs ys h
  rw [h.required "find" rfl Json.respects_string?,
    h.required "replacement" rfl Json.respects_string?]

theorem respects_entryPoint? : Respects EntryPoint.shape (entryPoint? .json) := by
  apply respects_record fun _ => rfl
  intro xs ys h
  rw [h.required "input" rfl Json.respects_string?, h.required "output" rfl Json.respects_string?]

theorem respects_resolve? : Respects resolveShape (resolve? .json) := by
  apply respects_record fun _ => rfl
  intro xs ys h
  rw [h.optional "extensions" rfl Json.respects_string?.list,
    h.optional "dedupe" rfl Json.respects_string?]

theorem respects_diagnostics? : Respects diagnosticsShape (diagnostics? .json) := by
  apply respects_record fun _ => rfl
  intro xs ys h
  rw [h.optional "framework_namespace" rfl Json.respects_string?,
    h.optional "circular_code" rfl Json.respects_string?]

theorem respects_runtime? : Respects runtimeShape (runtime? .json) := by
  apply respects_record fun _ => rfl
  intro xs ys h
  rw [h.required "name" rfl Json.respects_string?, h.required "version" rfl Json.respects_string?,
    h.required "builtins" rfl Json.respects_string?.list]

theorem respects_build? : Respects buildShape (build? .json) := by
  apply respects_record fun _ => rfl
  intro xs ys h
  exact h.withDefault "typescript" rfl Json.respects_bool? false

theorem respects_entries : Respects (.map EntryPoint.shape) fun json =>
    NameMap.ofList <$> Json.mapOf? (entryPoint? .json) json := by
  apply respects_entryPoint?.map fun _ => Option.map_eq_bind
  intro entries others hperm hnodup
  rw [Function.comp_apply, Function.comp_apply, NameMap.ofList_eq_of_perm hperm hnodup]

theorem respects_ofJson? : Respects shape (ofJson? .json) := by
  apply respects_record fun _ => rfl
  intro xs ys h
  -- the entries are put into a map last, and only then does their order not matter
  have hentries : ∀ make : NameMap EntryPoint → Configuration,
      ((xs.withDefault "entries" [] (Json.mapOf? (entryPoint? .json))) >>= fun entries =>
        pure (make (NameMap.ofList entries))) =
      ((ys.withDefault "entries" [] (Json.mapOf? (entryPoint? .json))) >>= fun entries =>
        pure (make (NameMap.ofList entries))) := by
    intro make
    have hmaps := h.map_withDefault "entries" rfl respects_entries []
    simpa [Option.map_eq_bind, Option.bind_assoc] using congrArg (Option.map make) hmaps
  rw [h.withDefault "alias" rfl respects_alias?.list, h.withDefault "resolve" rfl respects_resolve?,
    h.withDefault "diagnostics" rfl respects_diagnostics?, h.optional "runtime" rfl respects_runtime?,
    h.withDefault "build" rfl respects_build?]
  refine bind_congr fun aliases => bind_congr fun resolve => bind_congr fun diagnostics =>
    bind_congr fun runtime => bind_congr fun typescript => ?_
  exact hentries fun entries => {
    aliases, extensions := resolve.1, dedupe := resolve.2, frameworkNamespace := diagnostics.1,
    circularCode := diagnostics.2, runtime, typescript, entries }

end Configuration

-- ════════════════════════════════════════════════════════════════════════
-- Texts
-- ════════════════════════════════════════════════════════════════════════

open JsonSyntax (Spells Step Rearranged)

namespace Document

theorem read_rearranged {α : Type} {shape : JsonShape} {read : Json → Option α}
    (hread : Respects shape read) {text other : String} {tree rearranged : JsonSyntax}
    (htext : Spells text tree) (hother : Spells other rearranged)
    (h : Rearranged shape tree rearranged) :
    (Json.parse? text).bind read = (Json.parse? other).bind read := by
  have hvalue : read (tree.value 0) = read (rearranged.value 0) := by
    clear htext hother
    induction h with
    | refl => rfl
    | tail _ hstep ih => exact ih.trans (hread.steps (JsonSyntax.value_step hstep 0))
  rw [JsonSyntax.parse?_of_spells htext, JsonSyntax.parse?_of_spells hother, Option.bind_some,
    Option.bind_some, hvalue]

/-- A text and a text with the same members in other places, and with members that no record there
knows, are read alike as any type: both are refused, or both are accepted with the same value. The
texts may be any that have a value, by `JsonSyntax.parse?_eq_some_iff`. -/
theorem ofText?_rearranged {text other : String} {tree rearranged : JsonSyntax}
    (htext : Spells text tree) (hother : Spells other rearranged) :
    (Rearranged Environment.shape tree rearranged →
      (ofText? text : Option Environment) = ofText? other) ∧
    (Rearranged AliasEntry.shape tree rearranged →
      (ofText? text : Option AliasEntry) = ofText? other) ∧
    (Rearranged StageOptions.shape tree rearranged →
      (ofText? text : Option StageOptions) = ofText? other) ∧
    (Rearranged Stage.shape tree rearranged → (ofText? text : Option Stage) = ofText? other) ∧
    (Rearranged EntryPoint.shape tree rearranged →
      (ofText? text : Option EntryPoint) = ofText? other) ∧
    (Rearranged DiagnosticPolicy.shape tree rearranged →
      (ofText? text : Option DiagnosticPolicy) = ofText? other) ∧
    (Rearranged Pipeline.shape tree rearranged →
      (ofText? text : Option Pipeline) = ofText? other) ∧
    (Rearranged Plan.shape tree rearranged → (ofText? text : Option Plan) = ofText? other) ∧
    (Rearranged Diagnostic.shape tree rearranged →
      (ofText? text : Option Diagnostic) = ofText? other) ∧
    (Rearranged ModuleGraph.shape tree rearranged →
      (ofText? text : Option ModuleGraph) = ofText? other) ∧
    (Rearranged Artifact.shape tree rearranged →
      (ofText? text : Option Artifact) = ofText? other) ∧
    (Rearranged PackageManifest.shape tree rearranged →
      PackageManifest.dependencies? text = PackageManifest.dependencies? other) ∧
    (Rearranged Configuration.aliasShape tree rearranged →
      (Json.parse? text).bind (Configuration.alias? .json) =
        (Json.parse? other).bind (Configuration.alias? .json)) ∧
    (Rearranged Configuration.resolveShape tree rearranged →
      (Json.parse? text).bind (Configuration.resolve? .json) =
        (Json.parse? other).bind (Configuration.resolve? .json)) ∧
    (Rearranged Configuration.diagnosticsShape tree rearranged →
      (Json.parse? text).bind (Configuration.diagnostics? .json) =
        (Json.parse? other).bind (Configuration.diagnostics? .json)) ∧
    (Rearranged Configuration.runtimeShape tree rearranged →
      (Json.parse? text).bind (Configuration.runtime? .json) =
        (Json.parse? other).bind (Configuration.runtime? .json)) ∧
    (Rearranged EntryPoint.shape tree rearranged →
      (Json.parse? text).bind (Configuration.entryPoint? .json) =
        (Json.parse? other).bind (Configuration.entryPoint? .json)) ∧
    (Rearranged Configuration.buildShape tree rearranged →
      (Json.parse? text).bind (Configuration.build? .json) =
        (Json.parse? other).bind (Configuration.build? .json)) ∧
    (Rearranged Configuration.shape tree rearranged →
      (Json.parse? text).bind (Configuration.ofJson? .json) =
        (Json.parse? other).bind (Configuration.ofJson? .json)) := by
  refine ⟨?_, ?_, ?_, ?_, ?_, ?_, ?_, ?_, ?_, ?_, ?_, ?_, ?_, ?_, ?_, ?_, ?_, ?_, ?_⟩
  · exact read_rearranged respects_environment htext hother
  · exact read_rearranged respects_aliasEntry htext hother
  · exact read_rearranged respects_stageOptions htext hother
  · exact read_rearranged respects_stage htext hother
  · exact read_rearranged respects_entryPoint htext hother
  · exact read_rearranged respects_diagnosticPolicy htext hother
  · exact read_rearranged respects_pipeline htext hother
  · exact read_rearranged respects_plan htext hother
  · exact read_rearranged respects_diagnostic htext hother
  · exact read_rearranged respects_moduleGraph htext hother
  · exact read_rearranged respects_artifact htext hother
  · exact read_rearranged PackageManifest.respects_dependencies htext hother
  · exact read_rearranged Configuration.respects_alias? htext hother
  · exact read_rearranged Configuration.respects_resolve? htext hother
  · exact read_rearranged Configuration.respects_diagnostics? htext hother
  · exact read_rearranged Configuration.respects_runtime? htext hother
  · exact read_rearranged Configuration.respects_entryPoint? htext hother
  · exact read_rearranged Configuration.respects_build? htext hother
  · exact read_rearranged Configuration.respects_ofJson? htext hother

-- in the other layout the tag stands last, the members around it have changed places at two depths,
-- and two members have been added

def substitutionStage : Stage :=
  ⟨.envSubstitution, 2, .envSubstitution (.ofList [("a", "1"), ("b", "2")])⟩

def rearrangedStage : Json :=
  .object [("ordinal", .natural 2), ("note", .null),
    ("options", .object [("replacements", .object [("b", .string "2"), ("a", .string "1")]),
      ("check", .bool true), ("type", .string "env_substitution")]),
    ("id", .string "env_substitution")]

theorem rearranged_substitutionStage :
    Rearranged Stage.shape (toJson substitutionStage).tree rearrangedStage.tree := by
  let tag : JsonSyntax := .string (some "env_substitution")
  let first : JsonSyntax := (Json.object [("a", .string "1"), ("b", .string "2")]).tree
  let second : JsonSyntax := (Json.object [("b", .string "2"), ("a", .string "1")]).tree
  let ordinal : Option String × JsonSyntax := (some "ordinal", .number { whole := [2] })
  have hmap : Step (.map .plain) first second := .reorder (.swap _ _ _) fun _ => by decide
  have hreplacements : Step StageOptions.shape
      (.object [(some "type", tag), (some "replacements", first)])
      (.object [(some "type", tag), (some "replacements", second)]) :=
    @Step.member StageOptions.shape [(some "type", tag)] [] (some "replacements") first second hmap
  have htag : Step StageOptions.shape (.object [(some "type", tag), (some "replacements", second)])
      (.object [(some "replacements", second), (some "type", tag)]) :=
    .reorder (.swap _ _ _) False.elim
  have hcheck : Step StageOptions.shape
      (.object [(some "replacements", second), (some "type", tag)])
      (.object [(some "replacements", second), (some "check", .bool true), (some "type", tag)]) :=
    @Step.add StageOptions.shape [(some "replacements", second)] [(some "type", tag)] "check"
      (.bool true) (show "check" ≠ "type" ∧ "check" ∉ ["replacements"] by decide) rfl
  let options : JsonSyntax :=
    .object [(some "replacements", second), (some "check", .bool true), (some "type", tag)]
  let stage (options : JsonSyntax) : JsonSyntax :=
    .object [(some "id", tag), ordinal, (some "options", options)]
  have hoptions : Rearranged Stage.shape _ (stage options) :=
    Relation.ReflTransGen.lift stage
      (fun old new h =>
        @Step.member Stage.shape [(some "id", tag), ordinal] [] (some "options") old new h)
      _ _ (.tail (.tail (.single hreplacements) htag) hcheck)
  have hid : Step Stage.shape (stage options)
      (.object [ordinal, (some "options", options), (some "id", tag)]) :=
    .reorder (List.perm_append_comm : List.Perm ([_] ++ [_, _]) _) False.elim
  have hnote : Step Stage.shape (.object [ordinal, (some "options", options), (some "id", tag)])
      rearrangedStage.tree :=
    @Step.add Stage.shape [ordinal] [(some "options", options), (some "id", tag)] "note" .null
      (show "note" ∉ ["id", "ordinal", "options"] by decide) rfl
  exact .tail (.tail hoptions hid) hnote

theorem ofText?_rearrangedStage :
    Spells (text substitutionStage) (toJson substitutionStage).tree ∧
    Spells rearrangedStage.pretty rearrangedStage.tree ∧
    Rearranged Stage.shape (toJson substitutionStage).tree rearrangedStage.tree ∧
    (ofText? rearrangedStage.pretty : Option Stage) = some substitutionStage := by
  have htext : Spells (text substitutionStage) (toJson substitutionStage).tree :=
    Json.spells_compact _
  have hother : Spells rearrangedStage.pretty rearrangedStage.tree := Json.spells_pretty _
  obtain ⟨-, -, -, hstage, -⟩ := ofText?_rearranged htext hother
  have hread := (exact_stage.roundTrips (by decide)).ofText?_text substitutionStage
  exact ⟨htext, hother, rearranged_substitutionStage,
    (hstage rearranged_substitutionStage).symm.trans hread⟩

end Document
end StagedBuild
