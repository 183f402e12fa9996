import StagedBuild.Proofs.Execution.Delivery
import StagedBuild.Proofs.Execution.Stages

/-!
# Sharing a signal

The pipelines of a plan share one stop signal, and each of them could also be run alone, with a
signal that nobody has raised. When the executor is quiet the two agree up to the first pipeline
that fails alone: the signal is still lowered when that pipeline starts, and raised for good once it
has ended.

## Main definitions

* `Executor.Quiet`: an executor that leaves a lowered signal alone.
* `Executor.FirstFailure`: the first pipeline that fails when it is run alone.

## Main results

* `runPipelines_of_raised`: a raised signal cancels all pipelines that are left.
* `Executor.Quiet.runPipelines_append`: pipelines that succeed alone keep the signal lowered.
* `Executor.FirstFailure.execute`: the run up to the first failure.
-/

namespace StagedBuild

namespace Executor

/-- No pipeline that is started under a lowered signal raises it or fails with a cancellation. -/
def Quiet (executor : Executor) : Prop :=
  ∀ pipeline, QuietResult (executor false pipeline).result (executor false pipeline).raised

/-- What a pipeline comes to when it is run alone. -/
def outcomeAlone (executor : Executor) (pipeline : Pipeline) : TargetOutcome :=
  ⟨pipeline.target, (executor false pipeline).result⟩

/-- The transforms that are called for a pipeline when it is run alone. -/
def callsAlone (executor : Executor) (pipeline : Pipeline) : List Call :=
  (executor false pipeline).calls

/-- Of the listed pipelines, the first that fails when it is run alone, with its fault. -/
structure FirstFailure (executor : Executor) (pipelines before : List Pipeline)
    (pipeline : Pipeline) (fault : Fault) : Prop where
  split : ∃ after, pipelines = before ++ pipeline :: after
  succeed : ∀ earlier ∈ before, ∃ artifact, (executor false earlier).result = .ok artifact
  fails : (executor false pipeline).result = .error fault

/-- The pipelines all succeed alone, or one of them is the first that fails. -/
theorem artifacts_or_firstFailure (executor : Executor) (pipelines : List Pipeline) :
    (∃ artifacts : List Artifact,
      pipelines.map (fun pipeline => (executor false pipeline).result) = artifacts.map .ok) ∨
    ∃ before pipeline fault, executor.FirstFailure pipelines before pipeline fault := by
  have hcases : ∀ pipeline, (∃ artifact, (executor false pipeline).result = .ok artifact) ∨
      ∃ fault, (executor false pipeline).result = .error fault := by
    intro pipeline
    cases (executor false pipeline).result with
    | ok artifact => exact .inl ⟨artifact, rfl⟩
    | error fault => exact .inr ⟨fault, rfl⟩
  by_cases h : ∃ pipeline ∈ pipelines, ∃ fault, (executor false pipeline).result = .error fault
  · obtain ⟨before, pipeline, after, hsplit, hbefore, fault, hfault⟩ := Traversal.exists_first h
    refine .inr ⟨before, pipeline, fault, ⟨after, hsplit⟩, ?_, hfault⟩
    intro earlier hmem
    exact (hcases earlier).resolve_right (hbefore earlier hmem)
  · refine .inl (Traversal.exists_map_eq ?_)
    intro pipeline hmem
    exact (hcases pipeline).resolve_right fun hfault => h ⟨pipeline, hmem, hfault⟩

end Executor

-- ════════════════════════════════════════════════════════════════════════
-- One pipeline
-- ════════════════════════════════════════════════════════════════════════

section Step

variable {executor : Executor} {pipeline : Pipeline} {rest : List Pipeline}

/-- Once the signal is raised nothing is started any more. -/
theorem runPipelines_of_raised (executor : Executor) (pipelines : List Pipeline) :
    runPipelines executor true pipelines =
      ⟨pipelines.map fun pipeline => ⟨pipeline.target, .error .cancelled⟩, []⟩ := by
  induction pipelines with
  | nil => rfl
  | cons pipeline rest ih => simp [runPipelines, ih]

theorem runPipelines_of_error {fault : Fault} (h : (executor false pipeline).result = .error fault) :
    runPipelines executor false (pipeline :: rest) =
      ⟨⟨pipeline.target, .error fault⟩ ::
        rest.map fun later => ⟨later.target, .error .cancelled⟩, (executor false pipeline).calls⟩ := by
  simp [runPipelines, h, isFault, runPipelines_of_raised]

theorem runPipelines_of_ok {artifact : Artifact} (h : (executor false pipeline).result = .ok artifact)
    (hraised : (executor false pipeline).raised = false) :
    runPipelines executor false (pipeline :: rest) =
      ⟨⟨pipeline.target, .ok artifact⟩ :: (runPipelines executor false rest).outcomes,
        (executor false pipeline).calls ++ (runPipelines executor false rest).calls⟩ := by
  simp [runPipelines, h, hraised, isFault]

end Step

-- ════════════════════════════════════════════════════════════════════════
-- All pipelines
-- ════════════════════════════════════════════════════════════════════════

namespace Executor

variable {executor : Executor}

/-- The signal stays lowered along pipelines that succeed alone, so they do what they do alone and
the others start as they would have started first. -/
theorem Quiet.runPipelines_append (hquiet : executor.Quiet) {before : List Pipeline}
    (rest : List Pipeline)
    (h : ∀ pipeline ∈ before, ∃ artifact, (executor false pipeline).result = .ok artifact) :
    runPipelines executor false (before ++ rest) =
      ⟨before.map executor.outcomeAlone ++ (runPipelines executor false rest).outcomes,
        before.flatMap executor.callsAlone ++ (runPipelines executor false rest).calls⟩ := by
  induction before with
  | nil => rfl
  | cons pipeline before ih =>
    simp only [List.forall_mem_cons] at h
    obtain ⟨⟨artifact, hresult⟩, hbefore⟩ := h
    have hunraised := (hquiet pipeline).unraised
    rw [List.cons_append, runPipelines_of_ok hresult hunraised, ih hbefore]
    simp [outcomeAlone, callsAlone, hresult]

section Execute

variable {σ : Type} {sink : Sink σ} {state : σ} {plan : Plan}

/-- When every pipeline succeeds alone, a sink that accepts everything gets all artifacts. -/
theorem Quiet.execute_of_artifacts (hquiet : executor.Quiet)
    (haccepts : ∀ state artifact, (sink state artifact).2 = .ok ()) {artifacts : List Artifact}
    (h : plan.pipelines.values.map (fun pipeline => (executor false pipeline).result) =
      artifacts.map .ok) :
    (plan.execute executor sink state).result = .ok artifacts ∧
      (plan.execute executor sink state).calls =
        plan.pipelines.values.flatMap executor.callsAlone := by
  have hok : ∀ pipeline ∈ plan.pipelines.values,
      ∃ artifact, (executor false pipeline).result = .ok artifact := by
    intro pipeline hmem
    have hresult : (executor false pipeline).result ∈ artifacts.map .ok := by
      rw [← h]
      exact List.mem_map.2 ⟨pipeline, hmem, rfl⟩
    obtain ⟨artifact, -, heq⟩ := List.mem_map.1 hresult
    exact ⟨artifact, heq.symm⟩
  have hrun : runPipelines executor false plan.pipelines.values =
      ⟨plan.pipelines.values.map executor.outcomeAlone,
        plan.pipelines.values.flatMap executor.callsAlone⟩ := by
    have happend := hquiet.runPipelines_append [] hok
    simpa [runPipelines] using happend
  have hresults : (runPipelines executor false plan.pipelines.values).outcomes.map (·.result) =
      artifacts.map .ok := by
    rw [hrun, ← h, List.map_map]
    rfl
  obtain ⟨last, hlast⟩ := Sink.exists_accepts haccepts state artifacts
  rw [Plan.execute, deliver_of_accepts hresults hlast, hrun]
  exact ⟨rfl, rfl⟩

/-- The first pipeline that fails alone decides the run, and nothing is called after it. -/
theorem FirstFailure.execute {before : List Pipeline} {pipeline : Pipeline} {fault : Fault}
    (h : executor.FirstFailure plan.pipelines.values before pipeline fault)
    (hquiet : executor.Quiet) :
    (plan.execute executor sink state).result = .error (.target pipeline.target fault) ∧
      (plan.execute executor sink state).calls =
        (before ++ [pipeline]).flatMap executor.callsAlone := by
  obtain ⟨after, hsplit⟩ := h.split
  have hrun : runPipelines executor false plan.pipelines.values =
      ⟨before.map executor.outcomeAlone ++ ⟨pipeline.target, .error fault⟩ ::
          after.map fun later => ⟨later.target, .error .cancelled⟩,
        (before ++ [pipeline]).flatMap executor.callsAlone⟩ := by
    rw [hsplit, hquiet.runPipelines_append _ h.succeed, runPipelines_of_error h.fails]
    simp [callsAlone]
  have hbefore : ∀ outcome ∈ before.map executor.outcomeAlone, ¬ outcome.Failed := by
    intro outcome hmem
    obtain ⟨earlier, hearlier, rfl⟩ := List.mem_map.1 hmem
    obtain ⟨artifact, hresult⟩ := h.succeed earlier hearlier
    rintro ⟨other, hfault, -⟩
    rw [outcomeAlone, hresult] at hfault
    cases hfault
  have hverdict : verdict (runPipelines executor false plan.pipelines.values).outcomes =
      .error (.target pipeline.target fault) := by
    rw [hrun]
    exact verdict_of_failed hbefore ((hquiet pipeline).uncancelled fault h.fails)
  rw [Plan.execute, deliver_of_verdict_error hverdict, hrun]
  exact ⟨rfl, rfl⟩

end Execute
end Executor

-- ════════════════════════════════════════════════════════════════════════
-- Registries
-- ════════════════════════════════════════════════════════════════════════

/-- With quiet transforms and a sink that accepts everything, a run under one shared signal is what
its pipelines are alone, up to the first that fails. It brings the artifacts of all pipelines
exactly if each of them brings one alone, and otherwise reports the first that fails alone, never a
cancellation. The transforms that are called are those of the pipelines alone, one pipeline after
the other, the failing one included and none of a later one. -/
theorem execute_eq_runs_alone {σ : Type} (plan : Plan) (registry : Registry) (sink : Sink σ)
    (state : σ) (hquiet : registry.Quiet)
    (haccepts : ∀ state artifact, (sink state artifact).2 = .ok ()) :
    let pipelines := plan.pipelines.values
    let executor : Executor := registry.run
    let run := plan.execute executor sink state
    (∀ artifacts : List Artifact, run.result = .ok artifacts ↔
      pipelines.map (fun pipeline => (executor false pipeline).result) = artifacts.map .ok) ∧
    (∀ failure, run.result = .error failure ↔ ∃ before pipeline fault,
      executor.FirstFailure pipelines before pipeline fault ∧
      failure = .target pipeline.target fault) ∧
    run.result ≠ .error .cancelled ∧
    (∀ artifacts, run.result = .ok artifacts →
      run.calls = pipelines.flatMap fun pipeline => (executor false pipeline).calls) ∧
    (∀ before pipeline fault, executor.FirstFailure pipelines before pipeline fault →
      run.calls = (before ++ [pipeline]).flatMap fun pipeline => (executor false pipeline).calls) := by
  intro pipelines executor run
  have hexecutor : executor.Quiet := fun pipeline => hquiet.run pipeline
  have hall : ∀ {artifacts : List Artifact},
      pipelines.map (fun pipeline => (executor false pipeline).result) = artifacts.map .ok →
      run.result = .ok artifacts ∧ run.calls = pipelines.flatMap executor.callsAlone :=
    hexecutor.execute_of_artifacts haccepts
  have hfirst : ∀ {before pipeline fault}, executor.FirstFailure pipelines before pipeline fault →
      run.result = .error (.target pipeline.target fault) ∧
        run.calls = (before ++ [pipeline]).flatMap executor.callsAlone :=
    fun h => h.execute hexecutor
  -- each half of the alternative settles the result, so the converses follow from it
  have hcases := executor.artifacts_or_firstFailure pipelines
  have hok : ∀ artifacts : List Artifact, run.result = .ok artifacts ↔
      pipelines.map (fun pipeline => (executor false pipeline).result) = artifacts.map .ok := by
    intro artifacts
    refine ⟨?_, fun h => (hall h).1⟩
    intro hresult
    rcases hcases with ⟨others, h⟩ | ⟨before, pipeline, fault, h⟩
    · rw [(hall h).1] at hresult
      cases hresult
      exact h
    · rw [(hfirst h).1] at hresult
      cases hresult
  have hfailure : ∀ failure, run.result = .error failure ↔ ∃ before pipeline fault,
      executor.FirstFailure pipelines before pipeline fault ∧
      failure = .target pipeline.target fault := by
    intro failure
    constructor
    · intro hresult
      rcases hcases with ⟨artifacts, h⟩ | ⟨before, pipeline, fault, h⟩
      · rw [(hall h).1] at hresult
        cases hresult
      · rw [(hfirst h).1] at hresult
        cases hresult
        exact ⟨before, pipeline, fault, h, rfl⟩
    · rintro ⟨before, pipeline, fault, h, rfl⟩
      exact (hfirst h).1
  refine ⟨hok, hfailure, ?_, ?_, ?_⟩
  · intro hresult
    obtain ⟨before, pipeline, fault, -, heq⟩ := (hfailure .cancelled).1 hresult
    cases heq
  · intro artifacts hresult
    exact (hall ((hok artifacts).1 hresult)).2
  · intro before pipeline fault h
    exact (hfirst h).2

-- a run of three pipelines, of which the second fails at its second stage

/-- Alias resolution leaves the graph alone, and minification fails. -/
def crashingRegistry : Registry :=
  (Registry.empty.register .aliasResolution fun _ graph => { result := .ok graph }).register
    .minification fun _ _ => { result := .error (.ofMessage "minifier crashed") }

def crashingPipeline (target : Target) (stages : List Stage) : Pipeline where
  target
  entry := some ⟨target.name, "out"⟩
  stages
  externals := .empty
  diagnostics := .default

def crashingPlan : Plan where
  schema := Plan.currentSchema
  env := { mode := .production, legacyBuild := false, isBrowser := true }
  aliases := []
  pipelines := {
    client := some (crashingPipeline .client [.ofOptions 1 (.aliasResolution [] [])])
    server := some (crashingPipeline .server
      [.ofOptions 1 (.aliasResolution [] []), .ofOptions 2 (.minification true)])
    serviceWorker := some (crashingPipeline .serviceWorker
      [.ofOptions 1 (.aliasResolution [] [])]) }

/-- The service worker's stage is never called, although it would have passed. -/
theorem execute_crashingPlan :
    let run := crashingPlan.execute crashingRegistry.run (fun _ _ => ((), .ok ())) ()
    crashingRegistry.Quiet ∧
    run.result = .error (.target .server (.ofMessage "minifier crashed")) ∧
    run.calls = [
      ⟨.ofOptions 1 (.aliasResolution [] []), .ofEntry "client"⟩,
      ⟨.ofOptions 1 (.aliasResolution [] []), .ofEntry "server"⟩,
      ⟨.ofOptions 2 (.minification true), .ofEntry "server"⟩] := by
  intro run
  have hquiet : crashingRegistry.Quiet := by
    intro id transform htransform stage graph
    simp only [crashingRegistry, Registry.register, Registry.empty] at htransform
    split at htransform
    · cases htransform
      refine ⟨rfl, ?_⟩
      rintro fault ⟨⟩
      rfl
    · split at htransform
      · cases htransform
        exact ⟨rfl, by simp⟩
      · cases htransform
  have hfirst : Executor.FirstFailure crashingRegistry.run crashingPlan.pipelines.values
      [crashingPipeline .client [.ofOptions 1 (.aliasResolution [] [])]]
      (crashingPipeline .server
        [.ofOptions 1 (.aliasResolution [] []), .ofOptions 2 (.minification true)])
      (.ofMessage "minifier crashed") := by
    refine ⟨⟨_, rfl⟩, ?_, rfl⟩
    intro earlier hmem
    obtain rfl := List.mem_singleton.1 hmem
    exact ⟨_, rfl⟩
  obtain ⟨-, hfailure, -, -, hcalls⟩ :=
    execute_eq_runs_alone crashingPlan crashingRegistry (fun _ _ => ((), .ok ())) () hquiet
      fun _ _ => rfl
  exact ⟨hquiet, (hfailure _).2 ⟨_, _, _, hfirst, rfl⟩, hcalls _ _ _ hfirst⟩

end StagedBuild
