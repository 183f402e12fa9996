import StagedBuild.Execution.Registry

/-!
# The stages of one pipeline

What a single stage does to a pipeline that is being run, one equation for each way it can go, and
what follows for all stages together.

## Main definitions

* `QuietResult`: a result that neither is a cancellation nor calls the run off.
* `Registry.Quiet`: all transforms have such results.
-/

namespace StagedBuild

/-- A result that is no cancellation, and that was reached without calling the run off. -/
structure QuietResult {α : Type} (result : Except Fault α) (raised : Bool) : Prop where
  unraised : raised = false
  uncancelled : ∀ fault, result = .error fault → fault.isCancelled = false

/-- Only faults count, so a result stays quiet whatever is made of its value. -/
theorem QuietResult.map {α β : Type} {result : Except Fault α} {raised : Bool} (f : α → β)
    (h : QuietResult result raised) : QuietResult (result.map f) raised := by
  refine ⟨h.unraised, ?_⟩
  intro fault hfault
  cases result with
  | ok value => simp [Except.map] at hfault
  | error other =>
    obtain rfl : other = fault := by simpa [Except.map] using hfault
    exact h.uncancelled other rfl

namespace Registry

/-- No transform calls the run off or fails with a cancellation. -/
def Quiet (registry : Registry) : Prop :=
  ∀ id transform, registry id = some transform →
    ∀ stage graph, QuietResult (transform stage graph).result (transform stage graph).raises

-- ════════════════════════════════════════════════════════════════════════
-- One stage
-- ════════════════════════════════════════════════════════════════════════

section Step

variable (registry : Registry) (stage : Stage) (rest : List Stage) (graph : ModuleGraph)

@[simp] theorem runStages_nil (raised : Bool) :
    registry.runStages [] raised graph = ⟨.ok graph, raised, []⟩ := rfl

/-- A run that was called off stops before the next stage. -/
theorem runStages_of_raised :
    registry.runStages (stage :: rest) true graph = ⟨.error .cancelled, true, []⟩ := rfl

theorem runStages_of_missing (h : registry stage.id = none) :
    registry.runStages (stage :: rest) false graph =
      ⟨.error (missingTransform stage.id), false, []⟩ := by
  simp [runStages, h]

theorem runStages_of_error {transform : Transform} {fault : Fault}
    (h : registry stage.id = some transform) (hresult : (transform stage graph).result = .error fault) :
    registry.runStages (stage :: rest) false graph =
      ⟨.error fault, (transform stage graph).raises, [⟨stage, graph⟩]⟩ := by
  simp [runStages, h, hresult]

theorem runStages_of_ok {transform : Transform} {next : ModuleGraph}
    (h : registry stage.id = some transform) (hresult : (transform stage graph).result = .ok next) :
    registry.runStages (stage :: rest) false graph =
      { registry.runStages rest (transform stage graph).raises next with
        calls := ⟨stage, graph⟩ ::
          (registry.runStages rest (transform stage graph).raises next).calls } := by
  simp [runStages, h, hresult]

end Step

-- ════════════════════════════════════════════════════════════════════════
-- All stages
-- ════════════════════════════════════════════════════════════════════════

variable {registry : Registry}

/-- Quiet transforms leave the signal lowered from stage to stage. -/
theorem Quiet.runStages (hquiet : registry.Quiet) (stages : List Stage) (graph : ModuleGraph) :
    QuietResult (registry.runStages stages false graph).result
      (registry.runStages stages false graph).raised := by
  induction stages generalizing graph with
  | nil => exact ⟨rfl, by simp⟩
  | cons stage rest ih =>
    cases htransform : registry stage.id with
    | none =>
      rw [runStages_of_missing registry stage rest graph htransform]
      refine ⟨rfl, ?_⟩
      rintro fault ⟨⟩
      rfl
    | some transform =>
      have hstage := hquiet stage.id transform htransform stage graph
      cases hresult : (transform stage graph).result with
      | error fault =>
        rw [runStages_of_error registry stage rest graph htransform hresult]
        rw [hresult] at hstage
        exact hstage
      | ok next =>
        rw [runStages_of_ok registry stage rest graph htransform hresult, hstage.unraised]
        exact ih next

theorem Quiet.run (hquiet : registry.Quiet) (pipeline : Pipeline) :
    QuietResult (registry.run false pipeline).result (registry.run false pipeline).raised :=
  (hquiet.runStages pipeline.stages _).map _

end Registry
end StagedBuild
