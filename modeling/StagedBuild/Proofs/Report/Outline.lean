import StagedBuild.Proofs.Text.Lines
import StagedBuild.Proofs.Text.Words
import StagedBuild.Proofs.Traversal
import StagedBuild.Report.Outline

/-!
# Outlines are read back

An outline tells for each pipeline its target and the identifiers of its stages, and nothing else.
Names and keys hold none of the characters that begin the separators, so the line of a pipeline can
be taken apart again.

## Main definitions

* `Plan.scheduled`: the targets of a plan with the identifiers of their stages.
* `Outline.readLine?`, `Outline.read?`: what a line and a whole outline tell.

## Main results

* `Outline.readLine?_outline`: the line of a pipeline is read back.
* `Outline.read?_outline`: so is the outline of a plan.
* `Outline.outline_determines_scheduled`: plans with one outline schedule the same stages.
-/

namespace StagedBuild

/-- The pipelines in target order, each as its target and the identifiers of its stages. -/
def Plan.scheduled (plan : Plan) : List (Target × List StageId) :=
  plan.pipelines.values.map fun pipeline => (pipeline.target, pipeline.stageIds)

namespace Outline

/-- The stages between the arrows. An empty text lists none; split at the arrows it would be one part
without a key. -/
def readStages? (text : String) : Option (List StageId) :=
  if text = "" then some [] else (Text.splitAtWord " > " text).mapM StageId.ofKey?

/-- The target before the first colon with a blank behind it, and the stages that follow. -/
def readLine? (line : String) : Option (Target × List StageId) := do
  let (name, keys) ← Text.cut? ": " line
  return (← Target.ofName? name, ← readStages? keys)

/-- What the lines of an outline tell. Each of them ends in a line feed. -/
def read? (outline : String) : Option (List (Target × List StageId)) :=
  (Text.splitAt '\n' outline).dropLast.mapM readLine?

-- ════════════════════════════════════════════════════════════════════════
-- Names and keys
-- ════════════════════════════════════════════════════════════════════════

theorem colon_notMem_name (target : Target) : ':' ∉ target.name.toList := by
  cases target <;> decide

theorem unbroken_name (target : Target) : Text.Unbroken target.name := by
  cases target <;> decide

theorem blank_notMem_key (id : StageId) : ' ' ∉ id.key.toList := by
  cases id <;> decide

theorem unbroken_key (id : StageId) : Text.Unbroken id.key := by
  cases id <;> decide

theorem key_ne_empty (id : StageId) : id.key ≠ "" := by
  cases id <;> decide

-- ════════════════════════════════════════════════════════════════════════
-- Lines
-- ════════════════════════════════════════════════════════════════════════

theorem readStages?_joinWith (ids : List StageId) :
    readStages? (Text.joinWith " > " (ids.map StageId.key)) = some ids := by
  cases ids with
  | nil => rfl
  | cons id rest =>
    have harrow : " > ".toList = ' ' :: ['>', ' '] := by decide
    have hkeys : ∀ text ∈ (id :: rest).map StageId.key, ' ' ∉ text.toList := by
      intro text htext
      obtain ⟨other, -, rfl⟩ := List.mem_map.1 htext
      exact blank_notMem_key other
    have hne : (id :: rest).map StageId.key ≠ [] := List.cons_ne_nil _ _
    have htext : Text.joinWith " > " ((id :: rest).map StageId.key) ≠ "" :=
      Text.joinWith_ne_empty (key_ne_empty id) _
    rw [readStages?, if_neg htext, Text.splitAtWord_joinWith harrow hne hkeys,
      Traversal.mapM_map_of_forall StageId.ofKey?_key, List.map_id']

theorem outline_eq (pipeline : Pipeline) : pipeline.outline =
    pipeline.target.name ++ ": " ++ Text.joinWith " > " (pipeline.stageIds.map StageId.key) := by
  rw [Pipeline.outline, Pipeline.stageIds, List.map_map]
  rfl

/-- The line of a pipeline tells its target and its stages. -/
theorem readLine?_outline (pipeline : Pipeline) :
    readLine? pipeline.outline = some (pipeline.target, pipeline.stageIds) := by
  have hcolon : ": ".toList = ':' :: [' '] := by decide
  have hcut := Text.cut?_append hcolon (colon_notMem_name pipeline.target)
    (Text.joinWith " > " (pipeline.stageIds.map StageId.key))
  rw [readLine?, outline_eq, hcut]
  simp [Target.ofName?_name, readStages?_joinWith]

theorem unbroken_outline (pipeline : Pipeline) : Text.Unbroken pipeline.outline := by
  have hkeys : Text.Unbroken (Text.joinWith " > " (pipeline.stageIds.map StageId.key)) := by
    apply Text.unbroken_joinWith (by decide)
    intro text htext
    obtain ⟨id, -, rfl⟩ := List.mem_map.1 htext
    exact unbroken_key id
  rw [outline_eq, Text.unbroken_append, Text.unbroken_append]
  exact ⟨⟨unbroken_name pipeline.target, by decide⟩, hkeys⟩

-- ════════════════════════════════════════════════════════════════════════
-- Outlines
-- ════════════════════════════════════════════════════════════════════════

theorem splitAt_outline (plan : Plan) :
    Text.splitAt '\n' plan.outline = plan.pipelines.values.map Pipeline.outline ++ [""] := by
  apply Text.splitAt_unlines
  intro line hline
  obtain ⟨pipeline, -, rfl⟩ := List.mem_map.1 hline
  exact unbroken_outline pipeline

theorem read?_outline (plan : Plan) : read? plan.outline = some plan.scheduled := by
  rw [read?, splitAt_outline, List.dropLast_concat, Traversal.mapM_map_of_forall readLine?_outline,
    Plan.scheduled]

/-- The outline of a plan is one line for each pipeline, in target order and each ended by a line
feed. Every line tells the target and the stages of its pipeline, however many stages there are, so
two plans have one outline exactly when they schedule the same stages for the same targets. -/
theorem outline_determines_scheduled (plan : Plan) :
    (∃ lines, Text.splitAt '\n' plan.outline = lines ++ [""] ∧
      lines.map readLine? =
        plan.pipelines.values.map fun pipeline => some (pipeline.target, pipeline.stageIds)) ∧
    read? plan.outline = some plan.scheduled ∧
    ∀ other : Plan, plan.outline = other.outline ↔ plan.scheduled = other.scheduled := by
  refine ⟨⟨_, splitAt_outline plan, ?_⟩, read?_outline plan, ?_⟩
  · rw [List.map_map]
    exact List.map_congr_left fun pipeline _ => readLine?_outline pipeline
  · intro other
    constructor
    · intro heq
      have hread := read?_outline plan
      rw [heq, read?_outline other] at hread
      exact (Option.some.inj hread).symm
    · intro heq
      -- the line of a pipeline is made of its target and its stages alone
      have hlines : ∀ plan : Plan, plan.pipelines.values.map Pipeline.outline =
          plan.scheduled.map fun entry =>
            entry.1.name ++ ": " ++ Text.joinWith " > " (entry.2.map StageId.key) := by
        intro plan
        rw [Plan.scheduled, List.map_map]
        exact List.map_congr_left fun pipeline _ => outline_eq pipeline
      rw [Plan.outline, Plan.outline, hlines plan, hlines other, heq]

end Outline
end StagedBuild
