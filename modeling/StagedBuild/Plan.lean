import StagedBuild.Diagnostic
import StagedBuild.Environment
import StagedBuild.Stage.Basic

/-!
# Plans

A plan holds a pipeline for each of its targets. It is what other tools read, so it carries all that
they need to run the pipelines.

## Main definitions

* `EntryPoint`: where a bundle starts and where it goes.
* `Pipeline`: the stages of one target with its entry point, external modules and diagnostics.
* `Plan`: the environment, the aliases and the pipelines of a build.
-/

namespace StagedBuild

/-- The module that a bundle starts from, and the name that the bundle gets. -/
structure EntryPoint where
  input : String
  output : String
deriving DecidableEq, Repr

instance : Document EntryPoint where
  toJson entry := .object [("input", .string entry.input), ("output", .string entry.output)]
  ofJson? json := do
    let fields ← json.fields? .json ["input", "output"]
    return {
      input := ← fields.required "input" Json.string?
      output := ← fields.required "output" Json.string? }

structure Pipeline where
  target : Target
  entry : Option EntryPoint
  stages : List Stage
  /-- The modules that the bundle leaves out. -/
  externals : NameSet
  diagnostics : DiagnosticPolicy
deriving DecidableEq

namespace Pipeline

def stageIds (pipeline : Pipeline) : List StageId :=
  pipeline.stages.map (·.id)

def contains (pipeline : Pipeline) (id : StageId) : Bool :=
  pipeline.stages.any (·.id == id)

/-- The first stage of an identifier. -/
def stage? (pipeline : Pipeline) (id : StageId) : Option Stage :=
  pipeline.stages.find? (·.id == id)

/-- A missing entry point and an empty set of external modules are not written. -/
instance : Document Pipeline where
  toJson pipeline := .object (
    ("target", Document.toJson pipeline.target) ::
    ((pipeline.entry.map fun entry => ("entry", Document.toJson entry)).toList ++
    (("stages", Document.toJson pipeline.stages) ::
    ((if pipeline.externals.isEmpty then []
      else [("external_dependencies", Document.toJson pipeline.externals)]) ++
    [("diagnostics", Document.toJson pipeline.diagnostics)]))))
  ofJson? json := do
    let fields ← json.fields? .json
      ["target", "entry", "stages", "external_dependencies", "diagnostics"]
    return {
      target := ← fields.required "target" Document.ofJson?
      entry := ← fields.optional "entry" Document.ofJson?
      stages := ← fields.withDefault "stages" [] Document.ofJson?
      externals := ← fields.withDefault "external_dependencies" .empty Document.ofJson?
      diagnostics := ← fields.required "diagnostics" Document.ofJson? }

end Pipeline

/-- The pipelines of a build. -/
structure Plan where
  /-- The version of the format that the plan is written in. -/
  schema : String
  env : Environment
  aliases : List AliasEntry
  pipelines : TargetMap Pipeline
deriving DecidableEq

namespace Plan

/-- The version of the format of the plans that are made here. -/
def currentSchema : String := "bundleplan.plan.v1"

/-- The number of stages in all pipelines. -/
def totalStages (plan : Plan) : Nat :=
  (plan.pipelines.values.flatMap fun pipeline => pipeline.stages).length

instance : Document Plan where
  toJson plan := .object [
    ("schema", .string plan.schema),
    ("env", Document.toJson plan.env),
    ("aliases", Document.toJson plan.aliases),
    ("pipelines", Document.toJson plan.pipelines)]
  ofJson? json := do
    let fields ← json.fields? .json ["schema", "env", "aliases", "pipelines"]
    return {
      schema := ← fields.required "schema" Json.string?
      env := ← fields.required "env" Document.ofJson?
      aliases := ← fields.withDefault "aliases" [] Document.ofJson?
      pipelines := ← fields.withDefault "pipelines" .empty Document.ofJson? }

end Plan
end StagedBuild
