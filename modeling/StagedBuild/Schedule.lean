import StagedBuild.Plan
import StagedBuild.Stage.Definition

/-!
# Schedules

The stages of a target's pipeline are those of a list that apply to it, in the order of the list
and numbered from one.

## Main definitions

* `Schedule.definition?`: a stage of the list by its identifier.
* `Schedule.applicable`: the stages of the list that apply.
* `Schedule.pipeline`: the pipeline of a target, without entry point and external modules.
-/

namespace StagedBuild
namespace Schedule

/-- The stages that are scheduled unless another list is given. -/
def defaultStages : List StageId := StageId.all

/-- The first stage of the list that has the identifier. -/
def definition? (stages : List StageId) (id : StageId) : Option StageId :=
  stages.find? (· == id)

/-- The stages of the list that apply to a target, in the order of the list. -/
def applicable (stages : List StageId) (target : Target) (env : Environment) : List StageId :=
  stages.filter fun id => id.applies target env

/-- The listed stages with their options, numbered from `first` on. -/
def numbered (target : Target) (context : PlanContext) : Nat → List StageId → List Stage
  | _, [] => []
  | first, id :: rest =>
    Stage.ofOptions (UInt32.ofNat first) (id.options target context) ::
      numbered target context (first + 1) rest

/-- The pipeline of a target for the environment as the target sees it. -/
def pipeline (stages : List StageId) (target : Target) (context : PlanContext) : Pipeline :=
  let seen := context.forTarget target
  { target
    entry := none
    stages := numbered target seen 1 (applicable stages target seen.env)
    externals := .empty
    diagnostics := context.diagnostics }

/-- The pipeline of a target that is given by name. -/
def pipelineNamed (stages : List StageId) (name : String) (context : PlanContext) :
    Except BuildFailure Pipeline :=
  (Target.parse name).map fun target => pipeline stages target context

end Schedule
end StagedBuild
