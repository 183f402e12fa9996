import StagedBuild.Proofs.Execution.Delivery
import StagedBuild.Proofs.Planning.Outcome

/-!
# What a successful build brings

A run that brings artifacts has one for each pipeline of its plan, as the pipeline brings it by
itself. Target and output of an artifact are taken over from the settings without a change.

## Main results

* `Plan.results_of_execute`: the artifacts are those of the pipelines, in order.
* `Settings.values_sharedPlan`: the pipelines of a plan are those of the requested targets.
* `Settings.artifacts_of_build`: targets and outputs of the artifacts of a build.
-/

namespace StagedBuild

-- ════════════════════════════════════════════════════════════════════════
-- Runs without a failure
-- ════════════════════════════════════════════════════════════════════════

theorem verdict_eq_ok {outcomes : List TargetOutcome} {artifacts : List Artifact}
    (h : verdict outcomes = .ok artifacts) : outcomes.map (·.result) = artifacts.map .ok := by
  by_cases hfailed : ∃ outcome ∈ outcomes, outcome.Failed
  · obtain ⟨before, ⟨target, result⟩, after, rfl, hbefore, fault, hresult, hfault⟩ :=
      Traversal.exists_first hfailed
    obtain rfl : result = .error fault := hresult
    rw [verdict_of_failed hbefore hfault] at h
    cases h
  by_cases hstopped : ∃ outcome ∈ outcomes, outcome.Stopped
  · have hnone : ∀ outcome ∈ outcomes, ¬ outcome.Failed := by simpa using hfailed
    rw [verdict_of_stopped hnone hstopped] at h
    cases h
  obtain ⟨brought, hbrought⟩ : ∃ brought : List Artifact,
      outcomes.map (·.result) = brought.map .ok := by
    apply Traversal.exists_map_eq
    intro outcome hmem
    exact TargetOutcome.exists_artifact (fun hf => hfailed ⟨outcome, hmem, hf⟩)
      fun hs => hstopped ⟨outcome, hmem, hs⟩
  rw [verdict_of_artifacts hbrought] at h
  rw [hbrought, Except.ok.inj h]

/-- Pipelines that all brought an artifact were all started, so none of them saw the signal. -/
theorem runPipelines_results {executor : Executor} {raised : Bool} {pipelines : List Pipeline}
    {artifacts : List Artifact}
    (h : (runPipelines executor raised pipelines).outcomes.map (·.result) = artifacts.map .ok) :
    pipelines.map (fun pipeline => (executor false pipeline).result) = artifacts.map .ok := by
  induction pipelines generalizing raised artifacts with
  | nil => simpa [runPipelines] using h
  | cons pipeline rest ih =>
    cases artifacts with
    | nil => cases raised <;> simp [runPipelines] at h
    | cons artifact artifacts =>
      cases raised with
      | true => simp [runPipelines] at h
      | false =>
        simp only [runPipelines, List.map_cons, List.cons.injEq] at h
        rw [List.map_cons, List.map_cons, h.1, ih h.2]

/-- Every pipeline of a run without a failure brought its artifact. -/
theorem Plan.outcomes_of_execute {σ : Type} {plan : Plan} {executor : Executor} {sink : Sink σ}
    {state : σ} {artifacts : List Artifact}
    (h : (plan.execute executor sink state).result = .ok artifacts) :
    (runPipelines executor false plan.pipelines.values).outcomes.map (·.result) =
      artifacts.map .ok := by
  rw [Plan.execute, deliver] at h
  apply verdict_eq_ok
  split at h
  · cases h
  · next brought hverdict =>
    simp only at h
    split at h
    · cases h
    · rw [hverdict, Except.ok.inj h]

theorem Plan.results_of_execute {σ : Type} {plan : Plan} {executor : Executor} {sink : Sink σ}
    {state : σ} {artifacts : List Artifact}
    (h : (plan.execute executor sink state).result = .ok artifacts) :
    plan.pipelines.values.map (fun pipeline => (executor false pipeline).result) =
      artifacts.map .ok :=
  runPipelines_results (Plan.outcomes_of_execute h)

/-- A sink that refuses nothing has accepted all artifacts. -/
theorem Sink.accepts_of_emit {σ : Type} {sink : Sink σ} {state : σ} {artifacts : List Artifact}
    (h : (sink.emit state artifacts).refused = none) :
    sink.Accepts state artifacts (sink.emit state artifacts).state := by
  rcases sink.accepts_or_refuses state artifacts with ⟨last, haccepts⟩ |
    ⟨accepted, artifact, rest, middle, last, fault, rfl, haccepts, hrefused⟩
  · rwa [Sink.emit_of_accepts haccepts]
  · rw [Sink.emit_of_refused haccepts hrefused] at h
    cases h

/-- What stages do to a graph does not touch the target and the output. -/
theorem Registry.run_eq_ok {registry : Registry} {raised : Bool} {pipeline : Pipeline}
    {artifact : Artifact} (h : (registry.run raised pipeline).result = .ok artifact) :
    (artifact.target, artifact.output) = (pipeline.target, pipeline.entry.map (·.output)) := by
  simp only [Registry.run] at h
  generalize (registry.runStages _ _ _).result = result at h
  cases result with
  | error fault => cases h
  | ok graph =>
    obtain rfl := Except.ok.inj h
    rfl

-- ════════════════════════════════════════════════════════════════════════
-- The artifacts of a build
-- ════════════════════════════════════════════════════════════════════════

namespace Settings

variable {settings : Settings} {stages : List StageId} {env : Environment}

theorem values_sharedPlan (targets : List Target) :
    (settings.sharedPlan stages env targets).pipelines.values =
      (Target.all.filter (· ∈ targets)).map
        (settings.pipeline stages (settings.sharedContext env)) := by
  simp only [TargetMap.values, TargetMap.entries, get?_sharedPlan]
  generalize Target.all = all
  induction all with
  | nil => rfl
  | cons target rest ih =>
    simp only [List.filterMap_cons, List.filter_cons]
    by_cases hmem : target ∈ targets
    · simp only [hmem, if_true, decide_true, Option.map_some, List.map_cons, ih]
    · simp only [hmem, if_false, decide_false, Bool.false_eq_true, Option.map_none, ih]

/-- A build brings one artifact for each requested target, in target order, and its output is the
one that the settings have for the target, if any. -/
theorem artifacts_of_build [PatternCompiler] {σ : Type} {request : Option (List String)} {plan : Plan}
    {registry : Registry} {sink : Sink σ} {state : σ} {artifacts : List Artifact}
    (hplan : settings.planRequested stages env request = .ok plan)
    (hrun : (plan.execute registry.run sink state).result = .ok artifacts) :
    ∃ targets, requestedTargets request = .ok targets ∧
      artifacts.map (fun artifact => (artifact.target, artifact.output)) =
        (Target.all.filter (· ∈ targets)).map fun target =>
          (target, (settings.entries.get? target).map (·.output)) := by
  obtain ⟨-, -, targets, htargets, rfl⟩ := planRequested_eq_ok hplan
  refine ⟨targets, htargets, ?_⟩
  have hresults := Plan.results_of_execute hrun
  have hpipelines := Traversal.map_eq_map_of_results hresults fun pipeline artifact h =>
    Registry.run_eq_ok h
  rw [← hpipelines, values_sharedPlan, List.map_map]
  rfl

end Settings
end StagedBuild
