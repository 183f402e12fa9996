import StagedBuild.Execution.Artifact
import StagedBuild.Execution.Fault
import StagedBuild.Plan

/-!
# Running one pipeline

A registry has a transform for some of the stages. A pipeline runs its stages from first to last on
a module graph; before each of them it looks whether the run has been called off.

## Main definitions

* `Transform`: what is done for a stage.
* `Call`: what a transform was given when it was called.
* `Registry`: the transforms by stage.
* `PipelineRun`: the result of running a pipeline, and what happened on the way.
* `Registry.run`: running a pipeline.
-/

namespace StagedBuild

structure TransformOutcome where
  result : Except Fault ModuleGraph
  /-- The transform called the whole run off. -/
  raises : Bool := false

/-- What is done for a stage: it is given the stage and the graph that earlier stages left. -/
abbrev Transform := Stage → ModuleGraph → TransformOutcome

/-- A transform for some of the stages. -/
abbrev Registry := StageId → Option Transform

/-- A call of a transform: the stage and the graph that it was given. -/
structure Call where
  stage : Stage
  graph : ModuleGraph
deriving DecidableEq

namespace Call

def ordinal (call : Call) : UInt32 := call.stage.ordinal

def id (call : Call) : StageId := call.stage.id

/-- The entry module of the graph that was given. -/
def entry (call : Call) : String := call.graph.entry

end Call

/-- The result of running a pipeline, and what happened on the way. -/
structure PipelineRun where
  result : Except Fault Artifact
  /-- The run has been called off. -/
  raised : Bool
  calls : List Call

structure StagesRun where
  result : Except Fault ModuleGraph
  raised : Bool
  calls : List Call

namespace Registry

/-- No stage has a transform. -/
def empty : Registry := fun _ => none

def register (registry : Registry) (id : StageId) (transform : Transform) : Registry :=
  fun other => if other = id then some transform else registry other

def missingTransform (id : StageId) : Fault :=
  .ofMessage ("no transform registered for stage " ++ id.key)

/-- Run stages one after the other, each on the graph that the one before it left. -/
def runStages (registry : Registry) : List Stage → Bool → ModuleGraph → StagesRun
  | [], raised, graph => ⟨.ok graph, raised, []⟩
  | _ :: _, true, _ => ⟨.error .cancelled, true, []⟩
  | stage :: rest, false, graph =>
    match registry stage.id with
    | none => ⟨.error (missingTransform stage.id), false, []⟩
    | some transform =>
      let outcome := transform stage graph
      let call : Call := ⟨stage, graph⟩
      match outcome.result with
      | .error fault => ⟨.error fault, outcome.raises, [call]⟩
      | .ok graph =>
        let later := runStages registry rest outcome.raises graph
        { later with calls := call :: later.calls }

/-- Run a pipeline; `raised` tells whether the run has been called off before. The graph starts from
the pipeline's entry module, and the artifact gets the output of the entry point. -/
def run (registry : Registry) (raised : Bool) (pipeline : Pipeline) : PipelineRun :=
  let input := (pipeline.entry.map (·.input)).getD ""
  let stages := registry.runStages pipeline.stages raised (.ofEntry input)
  { result := stages.result.map fun graph =>
      ⟨pipeline.target, pipeline.entry.map (·.output), graph⟩
    raised := stages.raised
    calls := stages.calls }

end Registry
end StagedBuild
