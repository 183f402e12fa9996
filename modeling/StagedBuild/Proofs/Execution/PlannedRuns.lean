import StagedBuild.Proofs.Execution.Isolation
import StagedBuild.Proofs.Execution.Results
import StagedBuild.Proofs.Planning.Ordinals

/-!
# Running what was planned

Stages are run in the order in which they are listed, and a schedule lists them in the order of
their ordinals. So a pipeline of a plan calls the transforms of its stages by ordinal, from the first
up to the one at which it stops, and a run that succeeds has called them all.

## Main results

* `Registry.runStages_cons_cases`: what can come of the first of some stages.
* `Registry.stages_prefix_runStages`, `Registry.stages_of_runStages_ok`: the stages that are run.
* `runPipelines_started`: the pipelines of which anything is run.
* `Settings.planned_stages_are_run`: the calls that a build makes.
-/

namespace StagedBuild

namespace Registry

variable (registry : Registry)

/-- A stage is not called at all, or it is the last one that is called, or the run goes on behind
it. -/
theorem runStages_cons_cases (stage : Stage) (rest : List Stage) (raised : Bool)
    (graph : ModuleGraph) :
    (∃ fault, (registry.runStages (stage :: rest) raised graph).result = .error fault ∧
      ((registry.runStages (stage :: rest) raised graph).calls = [] ∨
        (registry.runStages (stage :: rest) raised graph).calls = [⟨stage, graph⟩])) ∨
    ∃ raises next,
      (registry.runStages (stage :: rest) raised graph).result =
        (registry.runStages rest raises next).result ∧
      (registry.runStages (stage :: rest) raised graph).calls =
        ⟨stage, graph⟩ :: (registry.runStages rest raises next).calls := by
  cases raised with
  | true =>
    rw [runStages_of_raised]
    exact .inl ⟨.cancelled, rfl, .inl rfl⟩
  | false =>
    cases htransform : registry stage.id with
    | none =>
      rw [runStages_of_missing registry stage rest graph htransform]
      exact .inl ⟨_, rfl, .inl rfl⟩
    | some transform =>
      cases hresult : (transform stage graph).result with
      | error fault =>
        rw [runStages_of_error registry stage rest graph htransform hresult]
        exact .inl ⟨fault, rfl, .inr rfl⟩
      | ok next =>
        rw [runStages_of_ok registry stage rest graph htransform hresult]
        exact .inr ⟨_, next, rfl, rfl⟩

variable (stages : List Stage) (raised : Bool) (graph : ModuleGraph)

/-- The stages that are called are the first ones, in order. -/
theorem stages_prefix_runStages :
    (registry.runStages stages raised graph).calls.map (·.stage) <+: stages := by
  induction stages generalizing raised graph with
  | nil => exact List.prefix_rfl
  | cons stage rest ih =>
    obtain ⟨fault, -, hcalls | hcalls⟩ | ⟨raises, next, -, hcalls⟩ :=
      registry.runStages_cons_cases stage rest raised graph
    · rw [hcalls]
      exact List.nil_prefix
    · rw [hcalls]
      exact ⟨rest, rfl⟩
    · rw [hcalls, List.map_cons, List.cons_prefix_cons]
      exact ⟨rfl, ih raises next⟩

variable {stages raised graph}

/-- A run that succeeds has called every stage. -/
theorem stages_of_runStages_ok {last : ModuleGraph}
    (h : (registry.runStages stages raised graph).result = .ok last) :
    (registry.runStages stages raised graph).calls.map (·.stage) = stages := by
  induction stages generalizing raised graph with
  | nil => rfl
  | cons stage rest ih =>
    obtain ⟨fault, hresult, -⟩ | ⟨raises, next, hresult, hcalls⟩ :=
      registry.runStages_cons_cases stage rest raised graph
    · rw [hresult] at h
      cases h
    · rw [hresult] at h
      rw [hcalls, List.map_cons, ih h]

theorem stages_of_run_ok {pipeline : Pipeline} {artifact : Artifact}
    (h : (registry.run raised pipeline).result = .ok artifact) :
    (registry.run raised pipeline).calls.map (·.stage) = pipeline.stages := by
  rw [run] at h ⊢
  generalize (pipeline.entry.map (·.input)).getD "" = input at h ⊢
  cases hresult : (registry.runStages pipeline.stages raised (.ofEntry input)).result with
  | error fault =>
    rw [hresult] at h
    cases h
  | ok last => exact registry.stages_of_runStages_ok hresult

theorem graph_of_first_call {first : Call}
    (h : first ∈ (registry.runStages stages raised graph).calls.head?) : first.graph = graph := by
  cases stages with
  | nil => cases h
  | cons stage rest =>
    obtain ⟨fault, -, hcalls | hcalls⟩ | ⟨raises, next, -, hcalls⟩ :=
      registry.runStages_cons_cases stage rest raised graph
    · rw [hcalls] at h
      cases h
    · rw [hcalls] at h
      cases h
      rfl
    · rw [hcalls] at h
      cases h
      rfl

end Registry

-- ════════════════════════════════════════════════════════════════════════
-- The pipelines of a plan
-- ════════════════════════════════════════════════════════════════════════

/-- The pipelines of which anything is run are the first ones, each as under a lowered signal. When
every pipeline brought an artifact, these are all of them. -/
theorem runPipelines_started (executor : Executor) (raised : Bool) (pipelines : List Pipeline) :
    ∃ started, started <+: pipelines ∧
      (runPipelines executor raised pipelines).calls = started.flatMap executor.callsAlone ∧
      ∀ artifacts : List Artifact,
        (runPipelines executor raised pipelines).outcomes.map (·.result) = artifacts.map .ok →
        started = pipelines := by
  induction pipelines generalizing raised with
  | nil => exact ⟨[], List.prefix_rfl, by simp [runPipelines], fun _ _ => rfl⟩
  | cons pipeline rest ih =>
    cases raised with
    | true =>
      rw [runPipelines_of_raised]
      refine ⟨[], List.nil_prefix, rfl, ?_⟩
      intro artifacts h
      cases artifacts <;> simp at h
    | false =>
      obtain ⟨started, hprefix, hcalls, hall⟩ :=
        ih ((executor false pipeline).raised || isFault (executor false pipeline).result)
      refine ⟨pipeline :: started, (List.cons_prefix_cons).2 ⟨rfl, hprefix⟩, ?_, ?_⟩
      · rw [runPipelines, List.flatMap_cons, ← hcalls]
        rfl
      · intro artifacts h
        cases artifacts with
        | nil => simp [runPipelines] at h
        | cons artifact artifacts =>
          simp only [runPipelines, List.map_cons, List.cons.injEq] at h
          rw [hall artifacts h.2]

@[simp] theorem calls_deliver {σ : Type} (sink : Sink σ) (state : σ) (run : PipelinesRun) :
    (deliver sink state run).calls = run.calls := by
  rw [deliver]
  split <;> rfl

-- ════════════════════════════════════════════════════════════════════════
-- Builds
-- ════════════════════════════════════════════════════════════════════════

namespace Settings

variable {settings : Settings} {stages : List StageId} {env : Environment}
  {request : Option (List String)} {plan : Plan}

/-- A pipeline of a plan has the listed stages that apply to its target. However a run of it ends, it
calls the first of them, in order, with the ordinals from one on; and the first call is given the
entry module that the settings have for the target, or an empty one. If the run succeeds then all
stages have been called, each once, and the artifact has the target and the output of the settings.
A run of the whole plan makes the calls of its first pipelines, and of all of them if it succeeds.

Ordinals are words of 32 bits; as numbers they are those that were counted so long as these fit. -/
theorem planned_stages_are_run [PatternCompiler]
    (hplan : settings.planRequested stages env request = .ok plan) (registry : Registry) :
    (∀ target pipeline raised, plan.pipelines.get? target = some pipeline →
      let ids := stages.filter fun id => id.applies target (env.forTarget target)
      let entry := settings.entries.get? target
      let run := registry.run raised pipeline
      pipeline.stageIds = ids ∧
      (∃ count ≤ ids.length,
        run.calls.map (·.id) = ids.take count ∧
        run.calls.map (·.ordinal) = (List.range' 1 count).map UInt32.ofNat ∧
        (count < UInt32.size → run.calls.map (·.ordinal.toNat) = List.range' 1 count) ∧
        ∀ artifact, run.result = .ok artifact → count = ids.length) ∧
      (∀ first ∈ run.calls.head?,
        first.graph = .ofEntry ((entry.map (·.input)).getD "")) ∧
      ∀ artifact, run.result = .ok artifact →
        run.calls.map (·.stage) = pipeline.stages ∧
        artifact.target = target ∧ artifact.output = entry.map (·.output)) ∧
    ∀ (σ : Type) (sink : Sink σ) (state : σ),
      let run := plan.execute registry.run sink state
      ∃ started, started <+: plan.pipelines.values ∧
        run.calls = started.flatMap (fun pipeline => (registry.run false pipeline).calls) ∧
        ∀ artifacts, run.result = .ok artifacts → started = plan.pipelines.values ∧
          started.map (fun pipeline => (registry.run false pipeline).result) =
            artifacts.map .ok := by
  constructor
  · intro target pipeline raised hget ids entry run
    obtain rfl := pipeline_of_planRequested hplan hget
    have hids := Schedule.stageIds_pipeline target (settings.sharedContext env) stages
    have hplanned : (Schedule.pipeline stages target (settings.sharedContext env)).stages.length =
        ids.length := by
      rw [← List.length_map (fun stage : Stage => stage.id)]
      exact congrArg List.length hids
    have hcount : (run.calls.map (·.stage)).length = run.calls.length := List.length_map _
    have hprefix : run.calls.map (·.stage) <+:
        (Schedule.pipeline stages target (settings.sharedContext env)).stages :=
      registry.stages_prefix_runStages _ raised _
    have hsucceeds : ∀ artifact, run.result = .ok artifact → run.calls.map (·.stage) =
        (Schedule.pipeline stages target (settings.sharedContext env)).stages :=
      fun artifact h => registry.stages_of_run_ok h
    refine ⟨hids, ⟨run.calls.length, ?_, ?_, ?_, ?_, ?_⟩, ?_, ?_⟩
    · rw [← hcount, ← hplanned]
      exact hprefix.length_le
    · have hmap := Schedule.map_id_of_prefix hprefix
      rwa [hcount, hids, List.map_map] at hmap
    · have hmap := Schedule.map_ordinal_of_prefix hprefix
      rwa [hcount, List.map_map] at hmap
    · intro hfits
      have hmap := Schedule.map_toNat_ordinal_of_prefix hprefix (hcount ▸ hfits)
      rwa [hcount, List.map_map] at hmap
    · intro artifact h
      rw [← hcount, ← hplanned, hsucceeds artifact h]
    · exact fun first h => registry.graph_of_first_call h
    · intro artifact h
      obtain ⟨htarget, houtput⟩ := Prod.mk.inj (Registry.run_eq_ok h)
      exact ⟨hsucceeds artifact h, htarget, houtput⟩
  · intro σ sink state run
    obtain ⟨started, hprefix, hcalls, hall⟩ :=
      runPipelines_started registry.run false plan.pipelines.values
    refine ⟨started, hprefix, ?_, ?_⟩
    · rw [← calls_deliver sink state] at hcalls
      exact hcalls
    · intro artifacts hrun
      have hstarted := hall artifacts (Plan.outcomes_of_execute hrun)
      refine ⟨hstarted, ?_⟩
      rw [hstarted]
      exact Plan.results_of_execute hrun

-- a build whose minification crashes, so that the client's run stops before its last stage

def bundledServer : Settings :=
  { Settings.forRoot "/app" with entries := { server := some ⟨"src/server.js", "build/server"⟩ } }

def minifiedStages : List StageId :=
  [.aliasResolution, .typedSource, .minification, .aliasResolution]

def minifiedPipeline (target : Target) : Pipeline :=
  bundledServer.pipeline minifiedStages
    (bundledServer.sharedContext ⟨.production, true, false, false⟩) target

/-- The client stops at the second of three stages. The server is not minified and runs them all. -/
theorem minifiedPipeline_runs :
    ∃ plan, bundledServer.planRequested minifiedStages ⟨.production, true, false, false⟩ none =
        .ok plan ∧
      plan.pipelines.get? .client = some (minifiedPipeline .client) ∧
      plan.pipelines.get? .server = some (minifiedPipeline .server) ∧
      (minifiedPipeline .client).stageIds = [.aliasResolution, .minification, .aliasResolution] ∧
      (crashingRegistry.run false (minifiedPipeline .client)).calls.map (·.ordinal) = [1, 2] ∧
      ∃ artifact, (crashingRegistry.run false (minifiedPipeline .server)).result = .ok artifact ∧
        (crashingRegistry.run false (minifiedPipeline .server)).calls.map (·.stage) =
          (minifiedPipeline .server).stages ∧
        artifact.output = some "build/server" := by
  have hplan : bundledServer.planRequested minifiedStages ⟨.production, true, false, false⟩ none =
      .ok (bundledServer.sharedPlan minifiedStages ⟨.production, true, false, false⟩ Target.all) :=
    planTargets_of_sound ⟨by decide +kernel, by decide +kernel⟩ (by decide +kernel) Target.all
  obtain ⟨hpipelines, -⟩ := planned_stages_are_run hplan crashingRegistry
  obtain ⟨hids, -⟩ := hpipelines .client (minifiedPipeline .client) false rfl
  obtain ⟨-, -, -, hsucceeds⟩ := hpipelines .server (minifiedPipeline .server) false rfl
  obtain ⟨hstages, -, houtput⟩ := hsucceeds _ rfl
  exact ⟨_, hplan, rfl, rfl, hids, by decide, _, rfl, hstages, houtput⟩

end Settings
end StagedBuild
