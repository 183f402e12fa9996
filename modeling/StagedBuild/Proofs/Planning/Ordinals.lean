import Mathlib.Data.List.Basic
import StagedBuild.Proofs.Planning.Schedule

/-!
# The order of a schedule

A pipeline has one stage for each listed stage that applies, in the order of the list, and the
ordinals count these stages from one. So the first stage of an identifier is the one with the least
ordinal, and a list in scheduling order makes a pipeline in scheduling order.

## Main definitions

* `StageId.Before`: scheduling order.

## Main results

* `Schedule.stageIds_pipeline`, `Schedule.map_ordinal_pipeline`: which stages a pipeline has, and
  how they are numbered.
* `Pipeline.stage?_eq_some_iff`: the stage with the least ordinal is the one that is found.
* `StageId.pairwise_before_iff`: the lists in scheduling order are the parts of the whole list.
-/

namespace StagedBuild

namespace StageId

/-- The stage comes earlier in scheduling order. -/
def Before (earlier later : StageId) : Prop :=
  all.idxOf earlier < all.idxOf later

instance (earlier later : StageId) : Decidable (Before earlier later) :=
  inferInstanceAs (Decidable (_ < _))

theorem pairwise_before_all : all.Pairwise Before := by
  decide

/-- A list that increases in scheduling order is made from the list of all stages by leaving some
out. -/
theorem pairwise_before_iff {ids : List StageId} : ids.Pairwise Before ↔ ids.Sublist all := by
  constructor
  · intro h
    have hdrop : ∀ n, (∀ id ∈ ids, n ≤ all.idxOf id) → ids.Sublist (all.drop n) := by
      induction ids with
      | nil => exact fun n _ => List.nil_sublist _
      | cons id rest ih =>
        intro n hn
        obtain ⟨hid, hrest⟩ := List.pairwise_cons.1 h
        have hlater := ih hrest (all.idxOf id + 1) fun later hlater => hid later hlater
        have hplace : all.idxOf id < all.length := List.idxOf_lt_length_iff.2 id.mem_all
        have hall : all.drop (all.idxOf id) = id :: all.drop (all.idxOf id + 1) := by
          rw [List.drop_eq_getElem_cons hplace, List.getElem_idxOf]
        have hfrom : (id :: rest).Sublist (all.drop (all.idxOf id)) := hall ▸ hlater.cons_cons id
        exact hfrom.trans (List.drop_sublist_drop_left all (hn id List.mem_cons_self))
    exact hdrop 0 fun _ _ => Nat.zero_le _
  · intro h
    exact pairwise_before_all.sublist h

end StageId

namespace Schedule

variable (target : Target) (context : PlanContext)

theorem map_id_numbered (first : Nat) (ids : List StageId) :
    (numbered target context first ids).map (·.id) = ids := by
  induction ids generalizing first with
  | nil => rfl
  | cons id rest ih => simp [numbered, Stage.ofOptions, ih]

theorem map_options_numbered (first : Nat) (ids : List StageId) :
    (numbered target context first ids).map (·.options) = ids.map (·.options target context) := by
  induction ids generalizing first with
  | nil => rfl
  | cons id rest ih => simp [numbered, Stage.ofOptions, ih]

theorem map_ordinal_numbered (first : Nat) (ids : List StageId) :
    (numbered target context first ids).map (·.ordinal) =
      (List.range' first ids.length).map UInt32.ofNat := by
  induction ids generalizing first with
  | nil => rfl
  | cons id rest ih => simp [numbered, Stage.ofOptions, List.range'_succ, ih]

/-- Numbers that fit into a word are what they were. -/
theorem map_toNat_ofNat {first count : Nat} (h : first + count ≤ UInt32.size) :
    ((List.range' first count).map UInt32.ofNat).map UInt32.toNat = List.range' first count := by
  rw [List.map_map]
  conv_rhs => rw [← List.map_id (List.range' first count)]
  apply List.map_congr_left
  intro n hn
  have hlt : n < first + count := (List.mem_range'_1.1 hn).2
  exact UInt32.toNat_ofNat_of_lt' (Nat.lt_of_lt_of_le hlt h)

-- ════════════════════════════════════════════════════════════════════════
-- Pipelines
-- ════════════════════════════════════════════════════════════════════════

variable (stages : List StageId)

theorem stageIds_pipeline : (pipeline stages target context).stageIds =
    stages.filter fun id => id.applies target (context.env.forTarget target) :=
  map_id_numbered target _ 1 _

theorem map_options_pipeline : (pipeline stages target context).stages.map (·.options) =
    (pipeline stages target context).stageIds.map (·.options target (context.forTarget target)) := by
  rw [stageIds_pipeline]
  exact map_options_numbered target _ 1 _

theorem map_ordinal_pipeline : (pipeline stages target context).stages.map (·.ordinal) =
    (List.range' 1 (pipeline stages target context).stages.length).map UInt32.ofNat := by
  have hlength := congrArg List.length (stageIds_pipeline target context stages)
  rw [Pipeline.stageIds, List.length_map] at hlength
  rw [hlength]
  exact map_ordinal_numbered target _ 1 _

theorem length_pipeline_le : (pipeline stages target context).stages.length ≤ stages.length := by
  have hlength := congrArg List.length (stageIds_pipeline target context stages)
  rw [Pipeline.stageIds, List.length_map] at hlength
  rw [hlength]
  exact List.length_filter_le _ _

section Leading

variable {target context stages} {leading : List Stage}

/-- The first stages of a pipeline are numbered like all of them. -/
theorem map_ordinal_of_prefix (h : leading <+: (pipeline stages target context).stages) :
    leading.map (·.ordinal) = (List.range' 1 leading.length).map UInt32.ofNat := by
  have htake := List.prefix_iff_eq_take.1 h
  calc
    leading.map (·.ordinal)
        = ((pipeline stages target context).stages.map (·.ordinal)).take leading.length := by
          conv_lhs => rw [htake]
          rw [List.map_take]
    _ = ((List.range' 1 (pipeline stages target context).stages.length).take
          leading.length).map UInt32.ofNat := by rw [map_ordinal_pipeline, List.map_take]
    _ = (List.range' 1 leading.length).map UInt32.ofNat := by
          rw [List.take_range'_of_length_ge h.length_le]

theorem map_toNat_ordinal_of_prefix (h : leading <+: (pipeline stages target context).stages)
    (hlength : leading.length < UInt32.size) :
    leading.map (·.ordinal.toNat) = List.range' 1 leading.length := by
  have hfits : 1 + leading.length ≤ UInt32.size := by omega
  rw [← map_toNat_ofNat hfits, ← map_ordinal_of_prefix h, List.map_map]
  rfl

theorem map_id_of_prefix (h : leading <+: (pipeline stages target context).stages) :
    leading.map (·.id) = (pipeline stages target context).stageIds.take leading.length := by
  rw [Pipeline.stageIds, ← List.map_take, ← List.prefix_iff_eq_take.1 h]

end Leading

end Schedule

namespace Pipeline

theorem contains_iff {pipeline : Pipeline} {id : StageId} :
    pipeline.contains id = true ↔ id ∈ pipeline.stageIds := by
  simp [contains, stageIds]

/-- With increasing ordinals the first stage of an identifier is the one with the least ordinal. -/
theorem stage?_eq_some_iff {pipeline : Pipeline} {id : StageId} {stage : Stage}
    (h : (pipeline.stages.map (·.ordinal.toNat)).Pairwise (· < ·)) :
    pipeline.stage? id = some stage ↔ stage ∈ pipeline.stages ∧ stage.id = id ∧
      ∀ other ∈ pipeline.stages, other.id = id → stage.ordinal ≤ other.ordinal := by
  rw [List.pairwise_map] at h
  rw [stage?]
  generalize pipeline.stages = stages at h ⊢
  induction stages with
  | nil => simp
  | cons first rest ih =>
    obtain ⟨hfirst, hrest⟩ := List.pairwise_cons.1 h
    by_cases hid : first.id = id
    · rw [List.find?_cons_of_pos (by simpa using hid), Option.some.injEq]
      constructor
      · rintro rfl
        refine ⟨List.mem_cons_self, hid, ?_⟩
        intro other hother _
        rw [UInt32.le_iff_toNat_le]
        rcases List.mem_cons.1 hother with rfl | hother
        · exact Nat.le_refl _
        · exact Nat.le_of_lt (hfirst other hother)
      · rintro ⟨hmem, -, hleast⟩
        rcases List.mem_cons.1 hmem with rfl | hmem
        · rfl
        · have hlt := hfirst stage hmem
          have hle := UInt32.le_iff_toNat_le.1 (hleast first List.mem_cons_self hid)
          omega
    · rw [List.find?_cons_of_neg (by simpa using hid), ih hrest]
      have hne : stage.id = id → stage ≠ first := by
        rintro hstage rfl
        exact hid hstage
      simp only [List.mem_cons, forall_eq_or_imp, hid, false_imp_iff, true_and]
      grind

end Pipeline

namespace Schedule

/-- A pipeline has exactly the listed stages that apply, in the order of the list and as often as
they are listed, each with the options of its identifier, and their ordinals are 1, 2, 3 and so on.
A stage is contained when it is listed and applies, and the one that is found has the least ordinal.
A list in scheduling order, that is a part of the list of all stages, makes a pipeline in scheduling
order. By default alias resolution is the first stage of every pipeline and environment substitution
the second. -/
theorem pipeline_schedules_applicable (stages : List StageId) (target : Target)
    (context : PlanContext) (hlength : stages.length < UInt32.size) :
    let planned := pipeline stages target context
    let applicable := stages.filter fun id => id.applies target (context.env.forTarget target)
    planned.stages.map (·.id) = applicable ∧
    planned.stages.map (·.options) = applicable.map (·.options target (context.forTarget target)) ∧
    planned.stages.map (·.options.stageId) = applicable ∧
    planned.stages.map (·.ordinal.toNat) = List.range' 1 applicable.length ∧
    (∀ id, planned.contains id = true ↔
      id ∈ stages ∧ id.applies target (context.env.forTarget target) = true) ∧
    (∀ id stage, planned.stage? id = some stage ↔ stage ∈ planned.stages ∧ stage.id = id ∧
      ∀ other ∈ planned.stages, other.id = id → stage.ordinal ≤ other.ordinal) ∧
    (stages.Pairwise StageId.Before → planned.stageIds.Pairwise StageId.Before) ∧
    (stages.Pairwise StageId.Before ↔ stages.Sublist StageId.all) ∧
    let byDefault := pipeline defaultStages target context
    byDefault.stageIds.Pairwise StageId.Before ∧
      (byDefault.stage? .aliasResolution).map (·.ordinal) = some 1 ∧
      (byDefault.stage? .envSubstitution).map (·.ordinal) = some 2 := by
  intro planned applicable
  have hids : planned.stageIds = applicable := stageIds_pipeline target context stages
  have hoptions : planned.stages.map (·.options) =
      applicable.map (·.options target (context.forTarget target)) := by
    rw [← hids]
    exact map_options_pipeline target context stages
  have hstageIds : planned.stages.map (·.options.stageId) = applicable := by
    have htags := congrArg (List.map StageOptions.stageId) hoptions
    simpa [Function.comp_def] using htags
  have hordinals : planned.stages.map (·.ordinal.toNat) = List.range' 1 planned.stages.length :=
    map_toNat_ordinal_of_prefix List.prefix_rfl
      (Nat.lt_of_le_of_lt (length_pipeline_le target context stages) hlength)
  have hincreasing : (planned.stages.map (·.ordinal.toNat)).Pairwise (· < ·) := by
    rw [hordinals]
    exact List.pairwise_lt_range'
  have hcount : planned.stages.length = applicable.length := by
    rw [← hids, Pipeline.stageIds, List.length_map]
  have hbefore : ∀ listed : List StageId, listed.Pairwise StageId.Before →
      (pipeline listed target context).stageIds.Pairwise StageId.Before := by
    intro listed hlisted
    rw [stageIds_pipeline]
    exact hlisted.filter _
  refine ⟨hids, hoptions, hstageIds, ?_, ?_, ?_, hbefore stages, StageId.pairwise_before_iff,
    hbefore defaultStages StageId.pairwise_before_all, rfl, rfl⟩
  · rw [← hcount]
    exact hordinals
  · intro id
    rw [Pipeline.contains_iff, hids, List.mem_filter]
  · exact fun id stage => Pipeline.stage?_eq_some_iff hincreasing

-- stages that are listed out of order, one of them twice and one that does not apply

def unorderedStages : List StageId :=
  [.minification, .typedSource, .aliasResolution, .minification]

def plainContext : PlanContext where
  env := { mode := .production, legacyBuild := false, isBrowser := false }
  aliases := .empty [".js"]
  dedupe := none
  diagnostics := .default

theorem pipeline_unorderedStages :
    let planned := pipeline unorderedStages .client plainContext
    unorderedStages.length < UInt32.size ∧
    planned.stages.map (·.id) = [.minification, .aliasResolution, .minification] ∧
    planned.stages.map (·.ordinal.toNat) = [1, 2, 3] ∧
    planned.contains .typedSource = false ∧
    planned.stage? .minification = some (.ofOptions 1 (.minification true)) := by
  intro planned
  have hlength : unorderedStages.length < UInt32.size := by decide
  obtain ⟨hids, -, -, hordinals, hcontains, hstage, -⟩ :=
    pipeline_schedules_applicable unorderedStages .client plainContext hlength
  refine ⟨hlength, hids, hordinals, ?_, (hstage _ _).2 ?_⟩
  · rw [Bool.eq_false_iff, Ne, hcontains]
    decide
  · decide

end Schedule
end StagedBuild
