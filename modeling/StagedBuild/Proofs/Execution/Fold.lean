import Mathlib.Data.Nat.Find
import Mathlib.Order.Bounds.Defs
import StagedBuild.Proofs.Execution.Isolation

/-!
# A run as a fold

Stages that pass turn a checkpoint into the next one: the signal as it stands, and the graph so far. So
a run is a fold over its stages, in the order in which these are listed, up to the first stage that
stops it. The signal is looked at before each stage, so one that the last stage raises stops nothing.

## Main definitions

* `Registry.registerAll`: a registry after further registrations.
* `Registry.advance`, `Registry.checkpoint`: what stages that pass lead to.
* `Registry.Stops`, `Registry.StopsAt`: what makes a stage stop the run.

## Main results

* `Registry.registerAll_apply`: the last registration of a stage counts.
* `Registry.runStages_of_not_stops`: a stage that passes.
* `Registry.runStages_of_passed`: the run as a fold, as far as nothing stops it.

The last theorem says how a run ends, for every registry that is built by registrations.
-/

namespace StagedBuild

@[simp] theorem isFault_map {α β : Type} (f : α → β) (result : Except Fault α) :
    isFault (result.map f) = isFault result := by
  cases result <;> rfl

/-- Where a run stands between two stages. -/
structure Checkpoint where
  /-- The run has been called off. -/
  raised : Bool
  graph : ModuleGraph
deriving DecidableEq

/-- Where a run of a pipeline starts: with the graph of the entry module, or of an empty name. -/
def Pipeline.start (pipeline : Pipeline) (raised : Bool) : Checkpoint :=
  ⟨raised, .ofEntry ((pipeline.entry.map (·.input)).getD "")⟩

namespace Registry

-- ════════════════════════════════════════════════════════════════════════
-- Registrations
-- ════════════════════════════════════════════════════════════════════════

def registerAll (registry : Registry) (registrations : List (StageId × Transform)) : Registry :=
  registrations.foldl (fun registry (id, transform) => registry.register id transform) registry

/-- The transforms that are registered for one stage, in order. -/
def transformsFor (registrations : List (StageId × Transform)) (id : StageId) : List Transform :=
  (registrations.filter (·.1 = id)).map (·.2)

theorem transformsFor_cons (other : StageId) (transform : Transform)
    (rest : List (StageId × Transform)) (id : StageId) :
    transformsFor ((other, transform) :: rest) id =
      if other = id then transform :: transformsFor rest id else transformsFor rest id := by
  by_cases h : other = id <;> simp [transformsFor, h]

/-- The last registration counts, and without any the registry is as before. -/
theorem registerAll_apply (registry : Registry) (registrations : List (StageId × Transform))
    (id : StageId) : registry.registerAll registrations id =
      (transformsFor registrations id).getLast?.or (registry id) := by
  induction registrations generalizing registry with
  | nil => rfl
  | cons registration rest ih =>
    obtain ⟨other, transform⟩ := registration
    have hrest : registry.registerAll ((other, transform) :: rest) =
        (registry.register other transform).registerAll rest := rfl
    rw [hrest, ih, register, transformsFor_cons]
    by_cases h : other = id
    · rw [if_pos h.symm, if_pos h, List.getLast?_cons]
      cases (transformsFor rest id).getLast? <;> rfl
    · rw [if_neg (Ne.symm h), if_neg h]

theorem registerAll_empty_apply (registrations : List (StageId × Transform)) (id : StageId) :
    empty.registerAll registrations id = (transformsFor registrations id).getLast? := by
  rw [registerAll_apply, empty, Option.or_none]

/-- Registrations can change places so long as those of one stage keep their order. -/
theorem registerAll_congr {registrations others : List (StageId × Transform)}
    (h : ∀ id, transformsFor registrations id = transformsFor others id) (registry : Registry) :
    registry.registerAll registrations = registry.registerAll others := by
  funext id
  rw [registerAll_apply, registerAll_apply, h]

theorem transformsFor_swap {first second : StageId × Transform} (hne : first.1 ≠ second.1)
    (front back : List (StageId × Transform)) (id : StageId) :
    transformsFor (front ++ second :: first :: back) id =
      transformsFor (front ++ first :: second :: back) id := by
  simp only [transformsFor, List.filter_append, List.filter_cons]
  by_cases hfirst : first.1 = id
  · have hsecond : second.1 ≠ id := fun h => hne (hfirst.trans h.symm)
    simp [hfirst, hsecond]
  · simp [hfirst]

-- ════════════════════════════════════════════════════════════════════════
-- One stage
-- ════════════════════════════════════════════════════════════════════════

section Step

variable (registry : Registry) (point : Checkpoint) (stage : Stage)

/-- What a stage makes of a checkpoint. Without a transform, or if this fails, it leaves it as it is. -/
def advance : Checkpoint :=
  match registry stage.id with
  | none => point
  | some transform =>
    let outcome := transform stage point.graph
    match outcome.result with
    | .error _ => point
    | .ok next => ⟨point.raised || outcome.raises, next⟩

/-- The run has been called off, or the stage has no transform, or its transform fails. -/
def Stops : Prop :=
  point.raised = true ∨ registry stage.id = none ∨
    ∃ transform fault, registry stage.id = some transform ∧
      (transform stage point.graph).result = .error fault

theorem stops_iff : registry.Stops point stage ↔
    (point.raised ||
      (registry stage.id).all fun transform => isFault (transform stage point.graph).result) := by
  rw [Stops, Bool.or_eq_true]
  cases registry stage.id with
  | none => simp
  | some transform => cases hresult : (transform stage point.graph).result <;> simp [isFault, hresult]

instance : Decidable (registry.Stops point stage) :=
  decidable_of_iff _ (stops_iff registry point stage).symm

variable {registry point stage}

/-- A stage that passes is called on the graph so far, and the run goes on from what it leads to. -/
theorem runStages_of_not_stops (h : ¬ registry.Stops point stage) (rest : List Stage) :
    let next := registry.advance point stage
    let later := registry.runStages rest next.raised next.graph
    registry.runStages (stage :: rest) point.raised point.graph =
      { later with calls := ⟨stage, point.graph⟩ :: later.calls } := by
  obtain ⟨hlowered, hpasses⟩ := not_or.1 h
  obtain ⟨hregistered, hsucceeds⟩ := not_or.1 hpasses
  have hraised : point.raised = false := by simpa using hlowered
  obtain ⟨transform, htransform⟩ := Option.ne_none_iff_exists'.1 hregistered
  cases hresult : (transform stage point.graph).result with
  | error fault => exact absurd ⟨transform, fault, htransform, hresult⟩ hsucceeds
  | ok next =>
    have hnext : registry.advance point stage = ⟨(transform stage point.graph).raises, next⟩ := by
      simp [advance, htransform, hresult, hraised]
    rw [hnext, hraised]
    exact runStages_of_ok registry stage rest point.graph htransform hresult

/-- However a stage stops the run, no artifact comes of it. -/
theorem isFault_runStages_of_stops (h : registry.Stops point stage) (rest : List Stage) :
    isFault (registry.runStages (stage :: rest) point.raised point.graph).result = true := by
  obtain ⟨raised, graph⟩ := point
  cases raised with
  | true => rfl
  | false =>
    obtain hraised | hmissing | ⟨transform, fault, htransform, hresult⟩ := h
    · cases hraised
    · rw [runStages_of_missing registry stage rest graph hmissing]
      rfl
    · rw [runStages_of_error registry stage rest graph htransform hresult]
      rfl

end Step

-- ════════════════════════════════════════════════════════════════════════
-- All stages
-- ════════════════════════════════════════════════════════════════════════

section Run

variable (registry : Registry) (start : Checkpoint) (stages : List Stage)

/-- Where a run stands after some of its first stages, if these pass. -/
def checkpoint (count : Nat) : Checkpoint :=
  (stages.take count).foldl registry.advance start

/-- The calls of some of the first stages, each with the graph that the ones before it led to. -/
def firstCalls (count : Nat) : List Call :=
  (stages.take count).mapIdx fun i stage => ⟨stage, (registry.checkpoint start stages i).graph⟩

/-- One of the stages stops the run, if the ones before it pass. -/
def StopsAt (i : Nat) : Prop :=
  ∃ stage, stages[i]? = some stage ∧ registry.Stops (registry.checkpoint start stages i) stage

instance (i : Nat) : Decidable (registry.StopsAt start stages i) :=
  inferInstanceAs (Decidable (∃ stage, stage ∈ stages[i]? ∧ _))

variable (stage : Stage) (rest : List Stage) (count : Nat)

@[simp] theorem checkpoint_zero : registry.checkpoint start stages 0 = start := rfl

@[simp] theorem checkpoint_nil : registry.checkpoint start [] count = start := by
  simp [checkpoint]

@[simp] theorem checkpoint_cons_succ : registry.checkpoint start (stage :: rest) (count + 1) =
    registry.checkpoint (registry.advance start stage) rest count := rfl

@[simp] theorem firstCalls_zero : registry.firstCalls start stages 0 = [] := rfl

@[simp] theorem firstCalls_nil : registry.firstCalls start [] count = [] := by
  simp [firstCalls]

@[simp] theorem firstCalls_cons_succ : registry.firstCalls start (stage :: rest) (count + 1) =
    ⟨stage, start.graph⟩ :: registry.firstCalls (registry.advance start stage) rest count := by
  simp [firstCalls, List.mapIdx_cons]

variable {start stages stage rest count} {i : Nat}

theorem forall_not_stopsAt_iff : (∀ i, ¬ registry.StopsAt start stages i) ↔
    ∀ i < stages.length, ¬ registry.StopsAt start stages i := by
  refine ⟨fun h i _ => h i, ?_⟩
  rintro h i ⟨stage, hstage, hstops⟩
  obtain ⟨hlt, -⟩ := List.getElem?_eq_some_iff.1 hstage
  exact h i hlt ⟨stage, hstage, hstops⟩

theorem isLeast_stopsAt_iff : IsLeast {i | registry.StopsAt start stages i} i ↔
    registry.StopsAt start stages i ∧ ∀ j < i, ¬ registry.StopsAt start stages j := by
  refine and_congr Iff.rfl ⟨?_, ?_⟩
  · exact fun h j hj hstops => Nat.not_le.2 hj (h hstops)
  · exact fun h j hstops => Nat.not_lt.1 fun hj => h j hj hstops

theorem stopsAt_cons_zero :
    registry.StopsAt start (stage :: rest) 0 ↔ registry.Stops start stage := by
  simp [StopsAt]

theorem stopsAt_cons_succ : registry.StopsAt start (stage :: rest) (i + 1) ↔
    registry.StopsAt (registry.advance start stage) rest i := Iff.rfl

theorem firstCalls_succ (h : stages[count]? = some stage) :
    registry.firstCalls start stages (count + 1) = registry.firstCalls start stages count ++
      [⟨stage, (registry.checkpoint start stages count).graph⟩] := by
  obtain ⟨hlt, -⟩ := List.getElem?_eq_some_iff.1 h
  rw [firstCalls, List.take_add_one, h, Option.toList_some, List.mapIdx_append, firstCalls]
  simp [List.length_take, Nat.min_eq_left (Nat.le_of_lt hlt)]

/-- As far as nothing stops it, a run folds its stages, and what is left of it starts where they led
to. -/
theorem runStages_of_passed (h : ∀ i < count, ¬ registry.StopsAt start stages i) :
    let point := registry.checkpoint start stages count
    let later := registry.runStages (stages.drop count) point.raised point.graph
    registry.runStages stages start.raised start.graph =
      { later with calls := registry.firstCalls start stages count ++ later.calls } := by
  -- the rest of the stages starts from where the first one led to, so any start is allowed
  induction count generalizing start stages with
  | zero => rfl
  | succ count ih =>
    cases stages with
    | nil => simp
    | cons stage rest =>
      have hfirst : ¬ registry.Stops start stage :=
        (registry.stopsAt_cons_zero).not.1 (h 0 (Nat.zero_lt_succ count))
      have hrest : ∀ i < count, ¬ registry.StopsAt (registry.advance start stage) rest i :=
        fun i hi => (registry.stopsAt_cons_succ).not.1 (h (i + 1) (Nat.succ_lt_succ hi))
      rw [runStages_of_not_stops hfirst, ih hrest]
      simp

end Run

-- ════════════════════════════════════════════════════════════════════════
-- Pipelines
-- ════════════════════════════════════════════════════════════════════════

section Pipelines

variable (registry : Registry) {pipeline : Pipeline} {raised : Bool} {i : Nat} {stage : Stage}

theorem run_eq_of_passed (h : ∀ j < i, ¬ registry.StopsAt (pipeline.start raised) pipeline.stages j) :
    let point := registry.checkpoint (pipeline.start raised) pipeline.stages i
    let later := registry.runStages (pipeline.stages.drop i) point.raised point.graph
    registry.run raised pipeline =
      { result := later.result.map fun graph =>
          ⟨pipeline.target, pipeline.entry.map (·.output), graph⟩
        raised := later.raised
        calls := registry.firstCalls (pipeline.start raised) pipeline.stages i ++ later.calls } := by
  have hstages := registry.runStages_of_passed h
  rw [Pipeline.start] at hstages
  rw [run, hstages]
  rfl

theorem run_of_all_passed
    (h : ∀ i, ¬ registry.StopsAt (pipeline.start raised) pipeline.stages i) :
    let last := registry.checkpoint (pipeline.start raised) pipeline.stages pipeline.stages.length
    registry.run raised pipeline =
      ⟨.ok ⟨pipeline.target, pipeline.entry.map (·.output), last.graph⟩, last.raised,
        registry.firstCalls (pipeline.start raised) pipeline.stages pipeline.stages.length⟩ := by
  intro last
  rw [registry.run_eq_of_passed fun i _ => h i, List.drop_length, runStages_nil, List.append_nil]
  rfl

/-- What a stage does to the run when the ones before it have passed. -/
theorem run_eq_of_reached (hstage : pipeline.stages[i]? = some stage)
    (h : ∀ j < i, ¬ registry.StopsAt (pipeline.start raised) pipeline.stages j) :
    let point := registry.checkpoint (pipeline.start raised) pipeline.stages i
    let later := registry.runStages (stage :: pipeline.stages.drop (i + 1)) point.raised point.graph
    registry.run raised pipeline =
      { result := later.result.map fun graph =>
          ⟨pipeline.target, pipeline.entry.map (·.output), graph⟩
        raised := later.raised
        calls := registry.firstCalls (pipeline.start raised) pipeline.stages i ++ later.calls } := by
  obtain ⟨hlt, rfl⟩ := List.getElem?_eq_some_iff.1 hstage
  rw [← List.drop_eq_getElem_cons hlt]
  exact registry.run_eq_of_passed h

/-- The checks in the order in which a run makes them: the signal, the registry, the transform. -/
theorem run_of_stop (hstage : pipeline.stages[i]? = some stage)
    (h : ∀ j < i, ¬ registry.StopsAt (pipeline.start raised) pipeline.stages j) :
    let point := registry.checkpoint (pipeline.start raised) pipeline.stages i
    (point.raised = true → registry.run raised pipeline =
      ⟨.error .cancelled, true, registry.firstCalls (pipeline.start raised) pipeline.stages i⟩) ∧
    (point.raised = false → registry stage.id = none → registry.run raised pipeline =
      ⟨.error (missingTransform stage.id), false,
        registry.firstCalls (pipeline.start raised) pipeline.stages i⟩) ∧
    ∀ transform fault, point.raised = false → registry stage.id = some transform →
      (transform stage point.graph).result = .error fault → registry.run raised pipeline =
        ⟨.error fault, (transform stage point.graph).raises,
          registry.firstCalls (pipeline.start raised) pipeline.stages (i + 1)⟩ := by
  intro point
  have hrun := registry.run_eq_of_reached hstage h
  refine ⟨?_, ?_, ?_⟩
  · intro hraised
    rw [hrun, hraised, runStages_of_raised, List.append_nil]
    rfl
  · intro hraised hmissing
    rw [hrun, hraised, runStages_of_missing _ _ _ _ hmissing, List.append_nil]
    rfl
  · intro transform fault hraised htransform hresult
    rw [hrun, hraised, runStages_of_error _ _ _ _ htransform hresult, firstCalls_succ _ hstage]
    rfl

theorem isFault_run_iff : isFault (registry.run raised pipeline).result = true ↔
    ∃ i, registry.StopsAt (pipeline.start raised) pipeline.stages i := by
  constructor
  · intro hfault
    by_contra h
    rw [registry.run_of_all_passed (not_exists.1 h)] at hfault
    cases hfault
  · intro h
    obtain ⟨stage, hstage, hstops⟩ := Nat.find_spec h
    rw [registry.run_eq_of_reached hstage fun _ => Nat.find_min h, isFault_map]
    exact isFault_runStages_of_stops hstops _

end Pipelines

/-- For each stage the transform that was registered last counts, and registrations of two stages can
change places. A run starts from the graph of the entry module, whose name is empty without an entry
point, and looks at the stages in the order in which they are listed. It fails exactly if one of them
stops it; otherwise the artifact has what all stages made of the graph, whatever became of the signal
meanwhile. The first stage that stops a run decides how it fails: by a raised signal before all else,
then by a missing transform, then by the fault of its own transform. Stages behind it are not called. -/
theorem run_is_fold (registrations : List (StageId × Transform)) :
    let registry := empty.registerAll registrations
    (∀ id, registry id = (transformsFor registrations id).getLast?) ∧
    (∀ front first second back, registrations = front ++ first :: second :: back →
      first.1 ≠ second.1 → empty.registerAll (front ++ second :: first :: back) = registry) ∧
    ∀ raised pipeline,
      let start := pipeline.start raised
      let stages := pipeline.stages
      let run := registry.run raised pipeline
      (isFault run.result = true ↔ ∃ i, registry.StopsAt start stages i) ∧
      ((∀ i, ¬ registry.StopsAt start stages i) →
        let last := registry.checkpoint start stages stages.length
        run = ⟨.ok ⟨pipeline.target, pipeline.entry.map (·.output), last.graph⟩, last.raised,
          registry.firstCalls start stages stages.length⟩) ∧
      ∀ i stage, IsLeast {i | registry.StopsAt start stages i} i → stages[i]? = some stage →
        let point := registry.checkpoint start stages i
        (point.raised = true →
          run = ⟨.error .cancelled, true, registry.firstCalls start stages i⟩) ∧
        (point.raised = false → registry stage.id = none →
          run = ⟨.error (.ofMessage ("no transform registered for stage " ++ stage.id.key)), false,
            registry.firstCalls start stages i⟩) ∧
        ∀ transform fault, point.raised = false → registry stage.id = some transform →
          (transform stage point.graph).result = .error fault →
          run = ⟨.error fault, (transform stage point.graph).raises,
            registry.firstCalls start stages (i + 1)⟩ := by
  intro registry
  refine ⟨registerAll_empty_apply registrations, ?_, ?_⟩
  · rintro front first second back rfl hne
    exact registerAll_congr (transformsFor_swap hne front back) empty
  · intro raised pipeline start stages run
    refine ⟨registry.isFault_run_iff, registry.run_of_all_passed, ?_⟩
    intro i stage hleast hstage
    exact registry.run_of_stop hstage ((isLeast_stopsAt_iff registry).1 hleast).2

-- a registry with a transform that was replaced, one that calls the run off and one that fails

def mixedRegistrations : List (StageId × Transform) := [
  (.aliasResolution, fun _ _ => { result := .error (.ofMessage "replaced") }),
  (.minification, fun _ graph => { result := .ok graph, raises := true }),
  (.typedSource, fun _ _ => { result := .error (.ofMessage "bad types") }),
  (.aliasResolution, fun _ _ => { result := .ok (.ofEntry "resolved") })]

def mixedRegistry : Registry :=
  empty.registerAll mixedRegistrations

def mixedPipeline (options : List StageOptions) : Pipeline :=
  crashingPipeline .client (options.map (.ofOptions 1))

/-- A raised signal stops neither an empty run nor one that is past its last stage. Before a stage it
comes first, also where there is no transform. -/
theorem mixedRegistry_runs :
    mixedRegistry.run true (mixedPipeline []) =
      ⟨.ok ⟨.client, some "out", .ofEntry "client"⟩, true, []⟩ ∧
    mixedRegistry.run false (mixedPipeline [.aliasResolution [] [], .minification true]) =
      ⟨.ok ⟨.client, some "out", .ofEntry "resolved"⟩, true, [
        ⟨.ofOptions 1 (.aliasResolution [] []), .ofEntry "client"⟩,
        ⟨.ofOptions 1 (.minification true), .ofEntry "resolved"⟩]⟩ ∧
    mixedRegistry.run false (mixedPipeline [.minification true, .interopNormalization]) =
      ⟨.error .cancelled, true, [⟨.ofOptions 1 (.minification true), .ofEntry "client"⟩]⟩ ∧
    mixedRegistry.run false (mixedPipeline [.aliasResolution [] [], .interopNormalization]) =
      ⟨.error (.ofMessage "no transform registered for stage interop_normalization"), false,
        [⟨.ofOptions 1 (.aliasResolution [] []), .ofEntry "client"⟩]⟩ ∧
    mixedRegistry.run false
        (mixedPipeline [.aliasResolution [] [], .typedSource true, .minification true]) =
      ⟨.error (.ofMessage "bad types"), false, [
        ⟨.ofOptions 1 (.aliasResolution [] []), .ofEntry "client"⟩,
        ⟨.ofOptions 1 (.typedSource true), .ofEntry "resolved"⟩]⟩ := by
  obtain ⟨-, -, hrun⟩ := run_is_fold mixedRegistrations
  obtain ⟨-, hempty, -⟩ := hrun true (mixedPipeline [])
  obtain ⟨-, hlast, -⟩ := hrun false (mixedPipeline [.aliasResolution [] [], .minification true])
  obtain ⟨-, -, hraised⟩ := hrun false (mixedPipeline [.minification true, .interopNormalization])
  obtain ⟨-, -, hmissing⟩ :=
    hrun false (mixedPipeline [.aliasResolution [] [], .interopNormalization])
  obtain ⟨-, -, hfails⟩ :=
    hrun false (mixedPipeline [.aliasResolution [] [], .typedSource true, .minification true])
  refine ⟨hempty ?_, hlast ?_, (hraised 1 _ ?_ rfl).1 rfl, (hmissing 1 _ ?_ rfl).2.1 rfl rfl,
    (hfails 1 _ ?_ rfl).2.2 _ _ rfl rfl rfl⟩
  · exact (forall_not_stopsAt_iff _).2 (by decide)
  · exact (forall_not_stopsAt_iff _).2 (by decide)
  · exact (isLeast_stopsAt_iff _).2 (by decide)
  · exact (isLeast_stopsAt_iff _).2 (by decide)
  · exact (isLeast_stopsAt_iff _).2 (by decide)

end Registry
end StagedBuild
