import StagedBuild.Plan
import StagedBuild.Text.Lines

/-!
# Plans in outline

A plan as one line for each target, with the keys of its stages in order.
-/

namespace StagedBuild

/-- The target's name, a colon and the keys of the stages with arrows between them. -/
def Pipeline.outline (pipeline : Pipeline) : String :=
  pipeline.target.name ++ ": " ++
    Text.joinWith " > " (pipeline.stages.map fun stage => stage.id.key)

/-- A line for each pipeline, in target order. -/
def Plan.outline (plan : Plan) : String :=
  Text.unlines (plan.pipelines.values.map Pipeline.outline)

end StagedBuild
