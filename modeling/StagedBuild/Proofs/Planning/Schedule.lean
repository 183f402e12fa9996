import StagedBuild.Schedule

/-!
# What a schedule holds

## Main results

* `StageId.stageId_options`: a stage's options belong to it.
* `Schedule.definition?_eq_some_iff`: a listed stage is found by its identifier.
* `Schedule.options_of_mem`: the options of a scheduled stage are those of its identifier.
* `Schedule.pipeline_congr`: the same stages with the same options make the same pipeline.
-/

namespace StagedBuild

namespace StageId

@[simp] theorem stageId_options (id : StageId) (target : Target) (context : PlanContext) :
    (id.options target context).stageId = id := by
  cases id <;> rfl

theorem replacements_congr {env other : Environment} (hmode : other.mode = env.mode)
    (hbrowser : other.isBrowser = env.isBrowser) : replacements other = replacements env := by
  rw [replacements, replacements, hmode, hbrowser]

end StageId

namespace Schedule

theorem definition?_eq_some_iff {stages : List StageId} {id found : StageId} :
    definition? stages id = some found ↔ found = id ∧ id ∈ stages := by
  constructor
  · intro h
    obtain rfl : found = id := beq_iff_eq.1 (List.find?_some h :)
    exact ⟨rfl, List.mem_of_find?_eq_some h⟩
  · rintro ⟨rfl, hmem⟩
    have hsome : (definition? stages found).isSome = true :=
      List.find?_isSome.2 ⟨found, hmem, beq_self_eq_true found⟩
    obtain ⟨other, hother⟩ := Option.isSome_iff_exists.1 hsome
    obtain rfl : other = found := beq_iff_eq.1 (List.find?_some hother :)
    exact hother

theorem definition?_defaultStages (id : StageId) : definition? defaultStages id = some id :=
  definition?_eq_some_iff.2 ⟨rfl, id.mem_all⟩

variable {target : Target} {context other : PlanContext} {stage : Stage}

theorem options_of_mem_numbered {first : Nat} {ids : List StageId}
    (h : stage ∈ numbered target context first ids) :
    stage.id ∈ ids ∧ stage.options = stage.id.options target context := by
  induction ids generalizing first with
  | nil => cases h
  | cons id rest ih =>
    rw [numbered, List.mem_cons] at h
    obtain rfl | h := h
    · simp [Stage.ofOptions]
    · obtain ⟨hmem, hoptions⟩ := ih h
      exact ⟨List.mem_cons_of_mem id hmem, hoptions⟩

theorem options_of_mem {stages : List StageId}
    (h : stage ∈ (pipeline stages target context).stages) :
    stage.options = stage.id.options target (context.forTarget target) :=
  (options_of_mem_numbered h).2

theorem numbered_congr (h : ∀ id : StageId, id.options target other = id.options target context)
    (first : Nat) (ids : List StageId) :
    numbered target other first ids = numbered target context first ids := by
  induction ids generalizing first with
  | nil => rfl
  | cons id rest ih => rw [numbered, numbered, h id, ih (first + 1)]

theorem pipeline_congr
    (happlies : ∀ id : StageId, id.applies target (other.env.forTarget target) =
      id.applies target (context.env.forTarget target))
    (hoptions : ∀ id : StageId, id.options target (other.forTarget target) =
      id.options target (context.forTarget target))
    (hdiagnostics : other.diagnostics = context.diagnostics) (stages : List StageId) :
    pipeline stages target other = pipeline stages target context := by
  have happlicable : applicable stages target (other.env.forTarget target) =
      applicable stages target (context.env.forTarget target) :=
    List.filter_congr fun id _ => happlies id
  have hstages :
      (pipeline stages target other).stages = (pipeline stages target context).stages := by
    show numbered target (other.forTarget target) 1
        (applicable stages target (other.env.forTarget target)) =
      numbered target (context.forTarget target) 1
        (applicable stages target (context.env.forTarget target))
    rw [happlicable, numbered_congr hoptions]
  simp only [pipeline] at hstages ⊢
  rw [hstages, hdiagnostics]

end Schedule
end StagedBuild
