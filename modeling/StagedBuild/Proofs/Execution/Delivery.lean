import StagedBuild.Execution.Run
import StagedBuild.Proofs.Traversal

/-!
# Verdict and emission

What a run amounts to once every pipeline has an outcome. A failure outranks a cancellation wherever
it stands, and artifacts reach the sink only when there is neither.

## Main definitions

* `TargetOutcome.Failed`, `TargetOutcome.Stopped`: the two ways to bring no artifact.
* `Sink.Accepts`: the sink takes artifacts one after the other, from one state to another.

## Main results

* `verdict_of_failed`, `verdict_of_stopped`, `verdict_of_artifacts`: which outcome decides.
* `Sink.accepts_or_refuses`: artifacts are accepted up to the end or up to the first refusal.

The last theorem puts these together for any mixture of outcomes.
-/

namespace StagedBuild

namespace TargetOutcome

/-- The target failed by itself. -/
def Failed (outcome : TargetOutcome) : Prop :=
  ∃ fault, outcome.result = .error fault ∧ fault.isCancelled = false

/-- The target stopped because it was told to. -/
def Stopped (outcome : TargetOutcome) : Prop :=
  ∃ fault, outcome.result = .error fault ∧ fault.isCancelled = true

theorem failure?_eq_none_iff (outcome : TargetOutcome) :
    outcome.failure? = none ↔ ¬ outcome.Failed := by
  obtain ⟨target, result⟩ := outcome
  cases result with
  | ok artifact => simp [failure?, Failed]
  | error fault => cases h : fault.isCancelled <;> simp [failure?, Failed, h]

theorem failure?_of_fault {fault : Fault} (target : Target) (h : fault.isCancelled = false) :
    failure? ⟨target, .error fault⟩ = some (.target target fault) := by
  simp [failure?, h]

theorem wasCancelled_iff (outcome : TargetOutcome) :
    outcome.wasCancelled = true ↔ outcome.Stopped := by
  obtain ⟨target, result⟩ := outcome
  cases result <;> simp [wasCancelled, Stopped]

/-- A target that neither failed nor was stopped brought an artifact. -/
theorem exists_artifact {outcome : TargetOutcome} (hfailed : ¬ outcome.Failed)
    (hstopped : ¬ outcome.Stopped) : ∃ artifact, outcome.result = .ok artifact := by
  obtain ⟨target, result⟩ := outcome
  cases result with
  | ok artifact => exact ⟨artifact, rfl⟩
  | error fault =>
    cases h : fault.isCancelled with
    | false => exact absurd ⟨fault, rfl, h⟩ hfailed
    | true => exact absurd ⟨fault, rfl, h⟩ hstopped

end TargetOutcome

-- ════════════════════════════════════════════════════════════════════════
-- The verdict
-- ════════════════════════════════════════════════════════════════════════

/-- The first target that failed by itself decides, whatever was cancelled before it. -/
theorem verdict_of_failed {before after : List TargetOutcome} {target : Target} {fault : Fault}
    (hbefore : ∀ outcome ∈ before, ¬ outcome.Failed) (hfault : fault.isCancelled = false) :
    verdict (before ++ ⟨target, .error fault⟩ :: after) = .error (.target target fault) := by
  have hnone : before.findSome? TargetOutcome.failure? = none := by
    rw [List.findSome?_eq_none_iff]
    intro outcome hmem
    exact outcome.failure?_eq_none_iff.2 (hbefore outcome hmem)
  have hfirst := TargetOutcome.failure?_of_fault target hfault
  simp [verdict, List.findSome?_append, hnone, hfirst]

/-- Without a failure one cancellation is enough. -/
theorem verdict_of_stopped {outcomes : List TargetOutcome}
    (hnone : ∀ outcome ∈ outcomes, ¬ outcome.Failed)
    (hstop : ∃ outcome ∈ outcomes, outcome.Stopped) : verdict outcomes = .error .cancelled := by
  have hfind : outcomes.findSome? TargetOutcome.failure? = none := by
    rw [List.findSome?_eq_none_iff]
    intro outcome hmem
    exact outcome.failure?_eq_none_iff.2 (hnone outcome hmem)
  have hany : outcomes.any TargetOutcome.wasCancelled = true := by
    obtain ⟨outcome, hmem, hstopped⟩ := hstop
    exact List.any_eq_true.2 ⟨outcome, hmem, outcome.wasCancelled_iff.2 hstopped⟩
  simp [verdict, hfind, hany]

/-- Artifacts of all targets are kept in order. -/
theorem filterMap_artifact? {outcomes : List TargetOutcome} {artifacts : List Artifact}
    (h : outcomes.map (·.result) = artifacts.map .ok) :
    outcomes.filterMap TargetOutcome.artifact? = artifacts := by
  have hartifact : TargetOutcome.artifact? = fun outcome => outcome.result.toOption := by
    funext outcome
    obtain ⟨target, result⟩ := outcome
    cases result <;> rfl
  calc
    outcomes.filterMap TargetOutcome.artifact?
        = (outcomes.map (·.result)).filterMap Except.toOption := by
          rw [hartifact, List.filterMap_map]
          rfl
    _ = (artifacts.map .ok).filterMap Except.toOption := by rw [h]
    _ = artifacts.filterMap some := by
          rw [List.filterMap_map]
          rfl
    _ = artifacts := List.filterMap_some

theorem verdict_of_artifacts {outcomes : List TargetOutcome} {artifacts : List Artifact}
    (h : outcomes.map (·.result) = artifacts.map .ok) : verdict outcomes = .ok artifacts := by
  have hok : ∀ outcome ∈ outcomes, ∃ artifact, outcome.result = .ok artifact := by
    intro outcome hmem
    have hresult : outcome.result ∈ artifacts.map .ok := h ▸ List.mem_map_of_mem hmem
    obtain ⟨artifact, -, heq⟩ := List.mem_map.1 hresult
    exact ⟨artifact, heq.symm⟩
  have hfind : outcomes.findSome? TargetOutcome.failure? = none := by
    rw [List.findSome?_eq_none_iff]
    intro outcome hmem
    obtain ⟨artifact, hresult⟩ := hok outcome hmem
    simp [TargetOutcome.failure?, hresult]
  have hany : outcomes.any TargetOutcome.wasCancelled = false := by
    rw [List.any_eq_false]
    intro outcome hmem
    obtain ⟨artifact, hresult⟩ := hok outcome hmem
    simp [TargetOutcome.wasCancelled, hresult]
  simp [verdict, hfind, hany, filterMap_artifact? h]

-- ════════════════════════════════════════════════════════════════════════
-- Handing artifacts over
-- ════════════════════════════════════════════════════════════════════════

section Sink

variable {σ : Type} {sink : Sink σ}

/-- The sink takes the listed artifacts one after the other and accepts each; this leads it from
the first state to the last. -/
inductive Sink.Accepts (sink : Sink σ) : σ → List Artifact → σ → Prop where
  | nil (state : σ) : Accepts sink state [] state
  | cons {state next last : σ} {artifact : Artifact} {rest : List Artifact}
      (head : sink state artifact = (next, .ok ())) (tail : Accepts sink next rest last) :
      Accepts sink state (artifact :: rest) last

theorem Sink.emit_of_accepts {state last : σ} {artifacts : List Artifact}
    (h : sink.Accepts state artifacts last) : sink.emit state artifacts = ⟨last, artifacts, none⟩ := by
  induction h with
  | nil => rfl
  | cons head _ ih => simp [Sink.emit, head, ih]

/-- Emission stops at the first refusal, and what follows it does not matter. -/
theorem Sink.emit_of_refused {state middle last : σ} {accepted rest : List Artifact}
    {artifact : Artifact} {fault : Fault} (h : sink.Accepts state accepted middle)
    (hrefused : sink middle artifact = (last, .error fault)) :
    sink.emit state (accepted ++ artifact :: rest) = ⟨last, accepted, some fault⟩ := by
  induction h with
  | nil => simp [Sink.emit, hrefused]
  | cons head _ ih => simp [Sink.emit, head, ih hrefused]

/-- A sink accepts all artifacts, or there is a first one that it refuses. -/
theorem Sink.accepts_or_refuses (sink : Sink σ) (state : σ) (artifacts : List Artifact) :
    (∃ last, sink.Accepts state artifacts last) ∨
    ∃ accepted artifact rest middle last fault, artifacts = accepted ++ artifact :: rest ∧
      sink.Accepts state accepted middle ∧ sink middle artifact = (last, .error fault) := by
  induction artifacts generalizing state with
  | nil => exact .inl ⟨state, .nil state⟩
  | cons artifact rest ih =>
    rcases hstep : sink state artifact with ⟨next, fault | accepted⟩
    · exact .inr ⟨[], artifact, rest, state, next, fault, rfl, .nil state, hstep⟩
    · rcases ih next with ⟨last, htail⟩ |
        ⟨accepted, refused, after, middle, last, fault, rfl, htail, hrefused⟩
      · exact .inl ⟨last, .cons hstep htail⟩
      · exact .inr ⟨artifact :: accepted, refused, after, middle, last, fault, rfl,
          .cons hstep htail, hrefused⟩

/-- A sink that accepts everything accepts any list of artifacts. -/
theorem Sink.exists_accepts (h : ∀ state artifact, (sink state artifact).2 = .ok ()) (state : σ)
    (artifacts : List Artifact) : ∃ last, sink.Accepts state artifacts last := by
  rcases sink.accepts_or_refuses state artifacts with haccepts |
    ⟨accepted, artifact, rest, middle, last, fault, -, -, hrefused⟩
  · exact haccepts
  · have hok := h middle artifact
    rw [hrefused] at hok
    cases hok

end Sink

-- ════════════════════════════════════════════════════════════════════════
-- Delivery
-- ════════════════════════════════════════════════════════════════════════

section Delivery

variable {σ : Type} {sink : Sink σ} {state last : σ} {run : PipelinesRun}

/-- Nothing is handed over when there is a failure to report. -/
theorem deliver_of_verdict_error {failure : RunFailure} (h : verdict run.outcomes = .error failure) :
    deliver sink state run = ⟨.error failure, run.calls, [], state⟩ := by
  simp [deliver, h]

theorem deliver_of_accepts {artifacts : List Artifact}
    (h : run.outcomes.map (·.result) = artifacts.map .ok)
    (haccepts : sink.Accepts state artifacts last) :
    deliver sink state run = ⟨.ok artifacts, run.calls, artifacts, last⟩ := by
  simp [deliver, verdict_of_artifacts h, Sink.emit_of_accepts haccepts]

theorem deliver_of_refused {accepted rest : List Artifact} {artifact : Artifact} {fault : Fault}
    {middle : σ} (h : run.outcomes.map (·.result) = (accepted ++ artifact :: rest).map .ok)
    (haccepts : sink.Accepts state accepted middle)
    (hrefused : sink middle artifact = (last, .error fault)) :
    deliver sink state run = ⟨.error (.emission fault), run.calls, accepted, last⟩ := by
  simp only [deliver, verdict_of_artifacts h, Sink.emit_of_refused haccepts hrefused]

/-- Whatever the outcomes of the pipelines are, one of three things is delivered. A target that
failed by itself is reported, the first of them, although targets before it may have been cancelled;
a cancellation is reported only without a failure; in both cases the sink keeps its state, so it is
never asked. Otherwise the artifacts are handed over in order, each of them once, up to the end or
up to and including the first that is refused. -/
theorem deliver_outcomes (sink : Sink σ) (state : σ) (run : PipelinesRun) :
    ((∃ outcome ∈ run.outcomes, outcome.Failed) →
      ∃ before target fault after, run.outcomes = before ++ ⟨target, .error fault⟩ :: after ∧
        (∀ outcome ∈ before, ¬ outcome.Failed) ∧ fault.isCancelled = false ∧
        deliver sink state run = ⟨.error (.target target fault), run.calls, [], state⟩) ∧
    ((∀ outcome ∈ run.outcomes, ¬ outcome.Failed) → (∃ outcome ∈ run.outcomes, outcome.Stopped) →
      deliver sink state run = ⟨.error .cancelled, run.calls, [], state⟩) ∧
    ((∀ outcome ∈ run.outcomes, ¬ outcome.Failed) →
      (∀ outcome ∈ run.outcomes, ¬ outcome.Stopped) →
      ∃ artifacts, run.outcomes.map (·.result) = artifacts.map .ok ∧
        ((∃ last, sink.Accepts state artifacts last ∧
          deliver sink state run = ⟨.ok artifacts, run.calls, artifacts, last⟩) ∨
        (∃ accepted artifact rest middle last fault, artifacts = accepted ++ artifact :: rest ∧
          sink.Accepts state accepted middle ∧ sink middle artifact = (last, .error fault) ∧
          deliver sink state run = ⟨.error (.emission fault), run.calls, accepted, last⟩))) := by
  refine ⟨?_, ?_, ?_⟩
  · intro hfailed
    obtain ⟨before, ⟨target, result⟩, after, hsplit, hbefore, fault, hresult, hfault⟩ :=
      Traversal.exists_first hfailed
    obtain rfl : result = .error fault := hresult
    refine ⟨before, target, fault, after, hsplit, hbefore, hfault, ?_⟩
    apply deliver_of_verdict_error
    rw [hsplit]
    exact verdict_of_failed hbefore hfault
  · intro hnone hstop
    exact deliver_of_verdict_error (verdict_of_stopped hnone hstop)
  · intro hfailed hstopped
    obtain ⟨artifacts, h⟩ : ∃ artifacts : List Artifact,
        run.outcomes.map (·.result) = artifacts.map .ok := by
      apply Traversal.exists_map_eq
      intro outcome hmem
      exact TargetOutcome.exists_artifact (hfailed outcome hmem) (hstopped outcome hmem)
    refine ⟨artifacts, h, ?_⟩
    rcases sink.accepts_or_refuses state artifacts with ⟨last, haccepts⟩ |
      ⟨accepted, artifact, rest, middle, last, fault, rfl, haccepts, hrefused⟩
    · exact .inl ⟨last, haccepts, deliver_of_accepts h haccepts⟩
    · exact .inr ⟨accepted, artifact, rest, middle, last, fault, rfl, haccepts, hrefused,
        deliver_of_refused h haccepts hrefused⟩

end Delivery
end StagedBuild
