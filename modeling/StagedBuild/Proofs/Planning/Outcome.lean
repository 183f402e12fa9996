import Mathlib.Data.String.Basic
import StagedBuild.Proofs.Alias.Registration
import StagedBuild.Proofs.Planning.Selection

/-!
# When planning succeeds

Settings can be planned when their alias names are sound and their namespace can be searched for.
Nothing else is refused, and a refused alias counts before a refused namespace. A namespace is refused
if it is blank, and otherwise only if the pattern compiler makes no pattern of it.

## Main definitions

* `Settings.sharedContext`: what the planning of every target shares.
* `Settings.planRequested`: the plan for all targets, or for those asked for by name.
* `Settings.planWith`: the plan that any planner makes.

## Main results

* `Settings.planContext_of_sound`, `Settings.planContext_of_firstFault`,
  `Settings.planContext_of_refused`: the three outcomes.
* `Settings.planRequested_eq_ok`, `Settings.pipeline_of_planRequested`: a plan holds the pipelines of
  the shared context.
* `Settings.planAll_outcomes`: when all targets are planned, and why they are not.
* `Settings.not_forall_namespaces_planned`: a namespace that is too long for a pattern.
-/

namespace StagedBuild
namespace Settings

def aliasNames (settings : Settings) : List String :=
  settings.aliases.map (·.name)

def sharedContext (settings : Settings) (env : Environment) : PlanContext where
  env
  aliases := ⟨settings.aliases, settings.extensions⟩
  dedupe := settings.dedupe
  diagnostics := ⟨settings.diagnosticCode, settings.frameworkNamespace⟩

/-- The plan for some targets when nothing is refused. -/
def sharedPlan (settings : Settings) (stages : List StageId) (env : Environment)
    (targets : List Target) : Plan where
  schema := Plan.currentSchema
  env
  aliases := settings.aliases
  pipelines := TargetMap.ofList
    (targets.map fun target =>
      (target, settings.pipeline stages (settings.sharedContext env) target))

theorem get?_sharedPlan {settings : Settings} {stages : List StageId} {env : Environment}
    {targets : List Target} {target : Target} :
    (settings.sharedPlan stages env targets).pipelines.get? target =
      if target ∈ targets then some (settings.pipeline stages (settings.sharedContext env) target)
      else none :=
  TargetMap.get?_ofList_map _ targets target

/-- Which targets are planned depends on the request alone. -/
def requestedTargets : Option (List String) → Except BuildFailure (List Target)
  | none => .ok Target.all
  | some names => selectTargets names

theorem eq_refusal_iff {name : String} {failure : BuildFailure} :
    failure = AliasTable.refusal name ↔
      if name = "" then failure = .emptyAliasName ∧ failure.kind = .configuration
      else failure = .duplicateAlias name := by
  by_cases hname : name = ""
  · rw [AliasTable.refusal, if_pos hname, if_pos hname]
    constructor
    · rintro rfl
      exact ⟨rfl, rfl⟩
    · exact And.left
  · rw [AliasTable.refusal, if_neg hname, if_neg hname]

section Planning

variable [PatternCompiler]

/-- The plan for all targets, or for those that are asked for by name. -/
def planRequested (settings : Settings) (stages : List StageId) (env : Environment) :
    Option (List String) → Except BuildFailure Plan
  | none => settings.planAll stages env
  | some names => settings.planSelected stages env names

-- ════════════════════════════════════════════════════════════════════════
-- The shared context
-- ════════════════════════════════════════════════════════════════════════

section Context

variable {settings : Settings} (env : Environment)

/-- A refused namespace is a matter of configuration. It is refused as blank before any pattern is
made of it. -/
theorem diagnosticFilter_eq_error_iff {failure : BuildFailure} :
    settings.diagnosticFilter = .error failure ↔ failure.kind = .configuration ∧
      (((∀ c ∈ settings.frameworkNamespace.toList, Text.isBlank c = true) ∧
        failure = .blankNamespace) ∨
      ((∃ c ∈ settings.frameworkNamespace.toList, Text.isBlank c = false) ∧ ∃ cause,
        PatternCompiler.refusal? settings.frameworkNamespace = some cause ∧
        failure = .refusedNamespace cause)) := by
  rw [diagnosticFilter, DiagnosticFilter.ofPolicy_eq_error_iff, ← Text.isBlankText_eq_false_iff,
    ← List.all_eq_true]
  constructor
  · rintro (⟨hblank, rfl⟩ | ⟨hnotBlank, cause, hcause, rfl⟩)
    · exact ⟨rfl, .inl ⟨hblank, rfl⟩⟩
    · exact ⟨rfl, .inr ⟨hnotBlank, cause, hcause, rfl⟩⟩
  · exact And.right

theorem planContext_of_sound (hsound : AliasTable.Sound settings.aliasNames)
    (hnamespace : DiagnosticFilter.Searchable settings.frameworkNamespace) :
    settings.planContext env = .ok (settings.sharedContext env) := by
  have htable : settings.aliasTable = .ok ⟨settings.aliases, settings.extensions⟩ :=
    AliasTable.ofEntries_of_sound hsound settings.extensions
  rw [planContext, htable, diagnosticFilter, DiagnosticFilter.ofPolicy_of_searchable hnamespace]
  rfl

theorem planContext_of_firstFault {index : Nat} {name : String}
    (h : AliasTable.FirstFault settings.aliasNames index name) :
    settings.planContext env = .error (AliasTable.refusal name) := by
  have htable : settings.aliasTable = .error (AliasTable.refusal name) :=
    AliasTable.ofEntries_eq_error h settings.extensions
  rw [planContext, htable]
  rfl

theorem planContext_of_refused (hsound : AliasTable.Sound settings.aliasNames)
    {failure : BuildFailure} (hfilter : settings.diagnosticFilter = .error failure) :
    settings.planContext env = .error failure := by
  have htable : settings.aliasTable = .ok ⟨settings.aliases, settings.extensions⟩ :=
    AliasTable.ofEntries_of_sound hsound settings.extensions
  rw [planContext, htable, hfilter]
  rfl

theorem planContext_eq_ok {context : PlanContext} (h : settings.planContext env = .ok context) :
    AliasTable.Sound settings.aliasNames ∧
      DiagnosticFilter.Searchable settings.frameworkNamespace ∧
      context = settings.sharedContext env := by
  by_cases hsound : AliasTable.Sound settings.aliasNames
  · cases hfilter : settings.diagnosticFilter with
    | error failure =>
      rw [planContext_of_refused env hsound hfilter] at h
      cases h
    | ok filter =>
      obtain ⟨hnamespace, -⟩ := DiagnosticFilter.ofPolicy_eq_ok_iff.1 hfilter
      rw [planContext_of_sound env hsound hnamespace] at h
      cases h
      exact ⟨hsound, hnamespace, rfl⟩
  · obtain ⟨index, name, hfirst⟩ := AliasTable.exists_firstFault hsound
    rw [planContext_of_firstFault env hfirst] at h
    cases h

end Context

-- ════════════════════════════════════════════════════════════════════════
-- Plans
-- ════════════════════════════════════════════════════════════════════════

variable {settings : Settings} {stages : List StageId} {env : Environment}

theorem planTargets_of_sound (hsound : AliasTable.Sound settings.aliasNames)
    (hnamespace : DiagnosticFilter.Searchable settings.frameworkNamespace) (targets : List Target) :
    settings.planTargets stages env targets = .ok (settings.sharedPlan stages env targets) :=
  planTargets_of_ok settings stages env (planContext_of_sound env hsound hnamespace) targets

theorem planTargets_eq_ok {targets : List Target} {plan : Plan}
    (h : settings.planTargets stages env targets = .ok plan) :
    AliasTable.Sound settings.aliasNames ∧
      DiagnosticFilter.Searchable settings.frameworkNamespace ∧
      plan = settings.sharedPlan stages env targets := by
  cases hcontext : settings.planContext env with
  | error failure =>
    rw [planTargets_of_error settings stages env hcontext] at h
    cases h
  | ok context =>
    obtain ⟨hsound, hnamespace, rfl⟩ := planContext_eq_ok env hcontext
    rw [planTargets_of_ok settings stages env hcontext] at h
    cases h
    exact ⟨hsound, hnamespace, rfl⟩

theorem planRequested_of_targets {request : Option (List String)} {targets : List Target}
    (h : requestedTargets request = .ok targets) :
    settings.planRequested stages env request = settings.planTargets stages env targets := by
  cases request with
  | none =>
    cases h
    rfl
  | some names =>
    rw [requestedTargets] at h
    rw [planRequested, planSelected, h]
    rfl

theorem planRequested_eq_ok {request : Option (List String)} {plan : Plan}
    (h : settings.planRequested stages env request = .ok plan) :
    AliasTable.Sound settings.aliasNames ∧
      DiagnosticFilter.Searchable settings.frameworkNamespace ∧
      ∃ targets, requestedTargets request = .ok targets ∧
        plan = settings.sharedPlan stages env targets := by
  cases htargets : requestedTargets request with
  | error failure =>
    cases request with
    | none => cases htargets
    | some names =>
      rw [requestedTargets] at htargets
      rw [planRequested, planSelected, htargets] at h
      cases h
  | ok targets =>
    rw [planRequested_of_targets htargets] at h
    obtain ⟨hsound, hnamespace, hplan⟩ := planTargets_eq_ok h
    exact ⟨hsound, hnamespace, targets, rfl, hplan⟩

theorem pipeline_of_planRequested {request : Option (List String)} {plan : Plan}
    (hplan : settings.planRequested stages env request = .ok plan)
    {target : Target} {pipeline : Pipeline} (h : plan.pipelines.get? target = some pipeline) :
    pipeline = settings.pipeline stages (settings.sharedContext env) target := by
  obtain ⟨-, -, targets, -, rfl⟩ := planRequested_eq_ok hplan
  rw [get?_sharedPlan] at h
  split at h
  · exact (Option.some.inj h).symm
  · cases h

theorem planAll_eq_error_iff {failure : BuildFailure} :
    settings.planAll stages env = .error failure ↔
      (∃ index name, AliasTable.FirstFault settings.aliasNames index name ∧
        failure = AliasTable.refusal name) ∨
      (AliasTable.Sound settings.aliasNames ∧ settings.diagnosticFilter = .error failure) := by
  rw [planAll, planTargets_eq_error_iff]
  constructor
  · intro h
    by_cases hsound : AliasTable.Sound settings.aliasNames
    · cases hfilter : settings.diagnosticFilter with
      | error other =>
        rw [planContext_of_refused env hsound hfilter] at h
        cases h
        exact .inr ⟨hsound, rfl⟩
      | ok filter =>
        obtain ⟨hnamespace, -⟩ := DiagnosticFilter.ofPolicy_eq_ok_iff.1 hfilter
        rw [planContext_of_sound env hsound hnamespace] at h
        cases h
    · obtain ⟨index, name, hfirst⟩ := AliasTable.exists_firstFault hsound
      rw [planContext_of_firstFault env hfirst] at h
      cases h
      exact .inl ⟨index, name, hfirst, rfl⟩
  · rintro (⟨index, name, hfirst, rfl⟩ | ⟨hsound, hfilter⟩)
    · exact planContext_of_firstFault env hfirst
    · exact planContext_of_refused env hsound hfilter

/-- The plan whose pipelines are made by any planner. The stages of a list are one. -/
def planWith (settings : Settings) (planner : PlanContext → Target → Pipeline) (env : Environment)
    (targets : List Target) : Except BuildFailure Plan := do
  let context ← settings.planContext env
  return {
    schema := Plan.currentSchema
    env
    aliases := context.aliases.entries
    pipelines := TargetMap.ofList (targets.map fun target => (target, planner context target)) }

theorem planAll_eq_planWith :
    settings.planAll stages env = settings.planWith (settings.pipeline stages) env Target.all := rfl

/-- A planner fails nothing. -/
theorem planWith_outcome (planner : PlanContext → Target → Pipeline) (targets : List Target) :
    (settings.planWith planner env targets).map (fun _ => ()) =
      (settings.planContext env).map fun _ => () := by
  rw [planWith]
  cases settings.planContext env <;> rfl

theorem planContext_outcome_congr {other : Settings} (otherEnv : Environment)
    (hnames : other.aliasNames = settings.aliasNames)
    (hnamespace : other.frameworkNamespace = settings.frameworkNamespace) :
    (other.planContext otherEnv).map (fun _ => ()) =
      (settings.planContext env).map fun _ => () := by
  by_cases hsound : AliasTable.Sound settings.aliasNames
  · have hother : AliasTable.Sound other.aliasNames := hnames ▸ hsound
    cases hfilter : settings.diagnosticFilter with
    | error failure =>
      have hotherFilter : other.diagnosticFilter = .error failure := by
        rw [diagnosticFilter_eq_error_iff] at hfilter ⊢
        rwa [hnamespace]
      rw [planContext_of_refused env hsound hfilter,
        planContext_of_refused otherEnv hother hotherFilter]
    | ok filter =>
      obtain ⟨hsearchable, -⟩ := DiagnosticFilter.ofPolicy_eq_ok_iff.1 hfilter
      rw [planContext_of_sound env hsound hsearchable,
        planContext_of_sound otherEnv hother (hnamespace ▸ hsearchable)]
      rfl
  · obtain ⟨index, name, hfirst⟩ := AliasTable.exists_firstFault hsound
    rw [planContext_of_firstFault env hfirst, planContext_of_firstFault otherEnv (hnames ▸ hfirst)]

/-- All targets are planned when the alias names are sound and the namespace is neither white space
only nor refused by the pattern compiler. Otherwise the least index whose name is empty or taken
decides the failure, and only when there is no such index the namespace does: as one of white space,
or else with the reason of the compiler. So nothing but alias names and namespace counts, and not even
how the targets are planned. -/
theorem planAll_outcomes (settings : Settings) (stages : List StageId) (env : Environment) :
    ((∃ plan, settings.planAll stages env = .ok plan) ↔
      (∀ name ∈ settings.aliasNames, name ≠ "") ∧ settings.aliasNames.Nodup ∧
        (∃ c ∈ settings.frameworkNamespace.toList, Text.isBlank c = false) ∧
        PatternCompiler.refusal? settings.frameworkNamespace = none) ∧
    (∀ failure, settings.planAll stages env = .error failure ↔
      (∃ index name, AliasTable.FirstFault settings.aliasNames index name ∧
        if name = "" then failure = .emptyAliasName ∧ failure.kind = .configuration
        else failure = .duplicateAlias name) ∨
      ((∀ index, ¬ AliasTable.FaultAt settings.aliasNames index) ∧ failure.kind = .configuration ∧
        (((∀ c ∈ settings.frameworkNamespace.toList, Text.isBlank c = true) ∧
          failure = .blankNamespace) ∨
        ((∃ c ∈ settings.frameworkNamespace.toList, Text.isBlank c = false) ∧ ∃ cause,
          PatternCompiler.refusal? settings.frameworkNamespace = some cause ∧
          failure = .refusedNamespace cause)))) ∧
    ∀ (other : Settings) (planner : PlanContext → Target → Pipeline) (otherEnv : Environment),
      other.aliasNames = settings.aliasNames →
      other.frameworkNamespace = settings.frameworkNamespace →
      (other.planWith planner otherEnv Target.all).map (fun _ => ()) =
        (settings.planAll stages env).map fun _ => () := by
  refine ⟨?_, ?_, ?_⟩
  · rw [← and_assoc, ← Text.isBlankText_eq_false_iff]
    constructor
    · rintro ⟨plan, hplan⟩
      obtain ⟨hsound, hnamespace, -⟩ := planTargets_eq_ok hplan
      exact ⟨hsound, hnamespace.notBlank, hnamespace.compiles⟩
    · rintro ⟨hsound, hnotBlank, hcompiles⟩
      exact ⟨_, planTargets_of_sound hsound ⟨hnotBlank, hcompiles⟩ Target.all⟩
  · intro failure
    rw [planAll_eq_error_iff, AliasTable.sound_iff, diagnosticFilter_eq_error_iff]
    simp only [eq_refusal_iff]
  · intro other planner otherEnv hnames hnamespace
    rw [planAll_eq_planWith, planWith_outcome, planWith_outcome]
    exact planContext_outcome_congr otherEnv hnames hnamespace

end Planning

-- a project whose framework has one letter for its name, repeated too often for a pattern

def letters (count : Nat) : String := String.ofList (List.replicate count 'a')

theorem mem_letters {count : Nat} (h : 0 < count) : 'a' ∈ (letters count).toList := by
  rw [letters, String.toList_ofList]
  exact List.mem_replicate.2 ⟨Nat.ne_of_gt h, rfl⟩

theorem utf8ByteSize_letters (count : Nat) : (letters count).utf8ByteSize = count := by
  rw [letters, String.utf8ByteSize_ofList]
  induction count with
  | zero => rfl
  | succ count ih =>
    rw [List.replicate_succ, String.utf8Len_cons, ih]
    rfl

def namedFramework (namespaceName : String) : Settings :=
  { forRoot "/app" with frameworkNamespace := namespaceName }

theorem frameworkNamespace_namedFramework (namespaceName : String) :
    (namedFramework namespaceName).frameworkNamespace = namespaceName := rfl

theorem sound_namedFramework (namespaceName : String) :
    AliasTable.Sound (namedFramework namespaceName).aliasNames := by
  change AliasTable.Sound (forRoot "/app").aliasNames
  exact ⟨by decide +kernel, by decide +kernel⟩

theorem size_of_planAll {namespaceName : String} {stages : List StageId} {env : Environment}
    {plan : Plan} (h : (namedFramework namespaceName).planAll stages env = .ok plan) :
    PatternCompiler.stateSize * namespaceName.utf8ByteSize ≤ PatternCompiler.sizeLimit := by
  obtain ⟨-, hnamespace, -⟩ := planTargets_eq_ok h
  exact PatternCompiler.sizeLimited_refusal?_eq_none_iff.1 hnamespace.compiles

/-- Sound alias names and a namespace with a letter are not enough for a plan. -/
theorem not_forall_namespaces_planned : ¬ ∀ (settings : Settings) (stages : List StageId)
    (env : Environment), (∃ plan, settings.planAll stages env = .ok plan) ↔
      (∀ name ∈ settings.aliasNames, name ≠ "") ∧ settings.aliasNames.Nodup ∧
        ∃ c ∈ settings.frameworkNamespace.toList, Text.isBlank c = false := by
  intro h
  have hplanned := h (namedFramework (letters 440000)) StageId.all ⟨.production, false, false, false⟩
  have hsound := sound_namedFramework (letters 440000)
  have hletter : 'a' ∈ (letters 440000).toList := mem_letters (by omega)
  rw [frameworkNamespace_namedFramework] at hplanned
  obtain ⟨plan, hplan⟩ := hplanned.2 ⟨hsound.1, hsound.2, 'a', hletter, by decide⟩
  have hsize := size_of_planAll hplan
  rw [utf8ByteSize_letters, PatternCompiler.stateSize, PatternCompiler.sizeLimit] at hsize
  omega

end Settings
end StagedBuild
