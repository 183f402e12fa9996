import StagedBuild.Execution.Registry

/-!
# Running a plan

The pipelines of a plan run one after the other in target order and share one stop signal. The first
failure raises it. Artifacts are handed over only when every pipeline has brought one.

## Main definitions

* `Executor`: what runs a pipeline.
* `runPipelines`: the outcome of each pipeline.
* `verdict`: the artifacts, or the one failure that is reported.
* `Sink`, `Sink.emit`: handing artifacts over until one is refused.
* `Plan.execute`: the whole run.
-/

namespace StagedBuild

/-- What runs a pipeline, given whether the run has been called off before. -/
abbrev Executor := Bool → Pipeline → PipelineRun

structure TargetOutcome where
  target : Target
  result : Except Fault Artifact

/-- The outcomes of pipelines, and the calls of transforms in all of them. -/
structure PipelinesRun where
  outcomes : List TargetOutcome
  calls : List Call

def isFault {α : Type} : Except Fault α → Bool
  | .error _ => true
  | .ok _ => false

/-- Run pipelines one after the other. Once the signal is raised no pipeline is started, and a
pipeline that fails raises it. -/
def runPipelines (executor : Executor) : Bool → List Pipeline → PipelinesRun
  | _, [] => ⟨[], []⟩
  | true, pipeline :: rest =>
    let later := runPipelines executor true rest
    ⟨⟨pipeline.target, .error .cancelled⟩ :: later.outcomes, later.calls⟩
  | false, pipeline :: rest =>
    let run := executor false pipeline
    let later := runPipelines executor (run.raised || isFault run.result) rest
    ⟨⟨pipeline.target, run.result⟩ :: later.outcomes, run.calls ++ later.calls⟩

/-- The artifacts of outcomes that all brought one. -/
def TargetOutcome.artifact? (outcome : TargetOutcome) : Option Artifact :=
  match outcome.result with
  | .ok artifact => some artifact
  | .error _ => none

/-- The failure of a target that was not merely cancelled. -/
def TargetOutcome.failure? (outcome : TargetOutcome) : Option RunFailure :=
  match outcome.result with
  | .ok _ => none
  | .error fault => if fault.isCancelled then none else some (.target outcome.target fault)

/-- The target was cancelled. -/
def TargetOutcome.wasCancelled (outcome : TargetOutcome) : Bool :=
  match outcome.result with
  | .ok _ => false
  | .error fault => fault.isCancelled

/-- What the outcomes amount to: the first failure that is no cancellation, else the cancellation,
else the artifacts in order. -/
def verdict (outcomes : List TargetOutcome) : Except RunFailure (List Artifact) :=
  match outcomes.findSome? TargetOutcome.failure? with
  | some failure => .error failure
  | none =>
    if outcomes.any TargetOutcome.wasCancelled then .error .cancelled
    else .ok (outcomes.filterMap TargetOutcome.artifact?)

/-- What takes artifacts, with a state of its own. It may refuse one, and even then its state may
have changed. -/
abbrev Sink (σ : Type) := σ → Artifact → σ × Except Fault Unit

/-- What handing artifacts over led to. -/
structure Emission (σ : Type) where
  state : σ
  accepted : List Artifact
  /-- The fault of the artifact that was refused; none follows it. -/
  refused : Option Fault

/-- Hand artifacts over in order until one is refused. -/
def Sink.emit {σ : Type} (sink : Sink σ) : σ → List Artifact → Emission σ
  | state, [] => ⟨state, [], none⟩
  | state, artifact :: rest =>
    match sink state artifact with
    | (state, .error fault) => ⟨state, [], some fault⟩
    | (state, .ok ()) =>
      let later := sink.emit state rest
      { later with accepted := artifact :: later.accepted }

/-- The result of running a plan, and what happened on the way. -/
structure PlanRun (σ : Type) where
  result : Except RunFailure (List Artifact)
  calls : List Call
  accepted : List Artifact
  state : σ

/-- Hand over the artifacts of outcomes, if there is nothing to report. -/
def deliver {σ : Type} (sink : Sink σ) (state : σ) (run : PipelinesRun) : PlanRun σ :=
  match verdict run.outcomes with
  | .error failure => ⟨.error failure, run.calls, [], state⟩
  | .ok artifacts =>
    let emission := sink.emit state artifacts
    { result := match emission.refused with
        | some fault => .error (.emission fault)
        | none => .ok artifacts
      calls := run.calls
      accepted := emission.accepted
      state := emission.state }

/-- Run the pipelines of a plan and hand over what they bring. -/
def Plan.execute {σ : Type} (plan : Plan) (executor : Executor) (sink : Sink σ) (state : σ) :
    PlanRun σ :=
  deliver sink state (runPipelines executor false plan.pipelines.values)

end StagedBuild
