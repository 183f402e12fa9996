import StagedBuild.Proofs.Planning.Outcome
import StagedBuild.Proofs.Planning.Schedule

/-!
# Independent targets

The pipeline of a target depends on some of the settings and flags only. Two builds that agree on
those plan it in the same way, whatever else differs between them.

## Main definitions

* `Settings.AgreeOn`: two builds agree on what the pipeline of a target depends on.

## Main results

* `Settings.AgreeOn.pipeline_eq`: builds that agree on a target plan it in the same way.
* `Settings.planRequested_independent`: what each flag and setting leaves as it is.
-/

namespace StagedBuild
namespace Settings

/-- The builds agree on what the pipeline of the target depends on. -/
structure AgreeOn (target : Target) (settings other : Settings) (env otherEnv : Environment) :
    Prop where
  aliases : other.aliases = settings.aliases
  extensions : other.extensions = settings.extensions
  diagnosticCode : other.diagnosticCode = settings.diagnosticCode
  frameworkNamespace : other.frameworkNamespace = settings.frameworkNamespace
  mode : otherEnv.mode = env.mode
  entry : other.entries.get? target = settings.entries.get? target
  /-- Only the client's code is brought down to old browsers. -/
  legacyBuild : target = .client → otherEnv.legacyBuild = env.legacyBuild
  /-- The service worker has no typed sources and merges no copies. -/
  typescript : target ≠ .serviceWorker → otherEnv.typescript = env.typescript
  dedupe : target ≠ .serviceWorker → other.dedupe = settings.dedupe
  /-- Only the server leaves modules out. -/
  declared : target = .server → other.declared = settings.declared
  builtins : target = .server → other.hostBuiltins.names = settings.hostBuiltins.names

namespace AgreeOn

theorem refl (target : Target) (settings : Settings) (env : Environment) :
    AgreeOn target settings settings env env where
  aliases := rfl
  extensions := rfl
  diagnosticCode := rfl
  frameworkNamespace := rfl
  mode := rfl
  entry := rfl
  legacyBuild _ := rfl
  typescript _ := rfl
  dedupe _ := rfl
  declared _ := rfl
  builtins _ := rfl

variable {target : Target} {settings other : Settings} {env otherEnv : Environment}

theorem applies_eq (h : AgreeOn target settings other env otherEnv) (id : StageId) :
    id.applies target (otherEnv.forTarget target) = id.applies target (env.forTarget target) := by
  cases id with
  | typedSource =>
    by_cases htarget : target = .serviceWorker
    · subst htarget
      simp [StageId.applies]
    · simp [StageId.applies, Environment.forTarget, h.typescript htarget]
  | legacyDownlevel =>
    by_cases htarget : target = .client
    · simp [StageId.applies, Environment.forTarget, h.legacyBuild htarget]
    · have hclient : (target == .client) = false := beq_eq_false_iff_ne.2 htarget
      simp [StageId.applies, hclient]
  | minification => simp [StageId.applies, Environment.forTarget, h.mode]
  | _ => rfl

theorem options_eq (h : AgreeOn target settings other env otherEnv) (id : StageId) :
    id.options target ((other.sharedContext otherEnv).forTarget target) =
      id.options target ((settings.sharedContext env).forTarget target) := by
  cases id with
  | aliasResolution =>
    simp [StageId.options, PlanContext.forTarget, sharedContext, h.aliases, h.extensions]
  | moduleResolution =>
    by_cases htarget : target = .serviceWorker
    · simp [StageId.options, htarget]
    · simp [StageId.options, PlanContext.forTarget, sharedContext, htarget, h.dedupe htarget]
  | envSubstitution =>
    exact congrArg StageOptions.envSubstitution (StageId.replacements_congr h.mode rfl)
  | componentCompilation =>
    simp [StageId.options, PlanContext.forTarget, sharedContext, Environment.forTarget, h.mode]
  | _ => rfl

theorem externals_eq (h : AgreeOn target settings other env otherEnv) :
    Externals.forTarget other.hostBuiltins other.declared target =
      Externals.forTarget settings.hostBuiltins settings.declared target := by
  cases target with
  | server => simp [Externals.forTarget, h.declared rfl, h.builtins rfl]
  | client => rfl
  | serviceWorker => rfl

theorem pipeline_eq (h : AgreeOn target settings other env otherEnv) (stages : List StageId) :
    other.pipeline stages (other.sharedContext otherEnv) target =
      settings.pipeline stages (settings.sharedContext env) target := by
  have hdiagnostics : (other.sharedContext otherEnv).diagnostics =
      (settings.sharedContext env).diagnostics := by
    rw [sharedContext, sharedContext, h.diagnosticCode, h.frameworkNamespace]
  have hschedule := Schedule.pipeline_congr h.applies_eq h.options_eq hdiagnostics stages
  rw [pipeline, pipeline, hschedule, h.entry, h.externals_eq]

end AgreeOn

section Plans

variable [PatternCompiler] {settings other : Settings} {stages : List StageId}
  {env otherEnv : Environment} {request : Option (List String)} {plan otherPlan : Plan}

theorem get?_eq_of_agreeOn {target : Target}
    (hplan : settings.planRequested stages env request = .ok plan)
    (hother : other.planRequested stages otherEnv request = .ok otherPlan)
    (h : AgreeOn target settings other env otherEnv) :
    otherPlan.pipelines.get? target = plan.pipelines.get? target := by
  obtain ⟨-, -, targets, htargets, rfl⟩ := planRequested_eq_ok hplan
  obtain ⟨-, -, otherTargets, hothers, rfl⟩ := planRequested_eq_ok hother
  rw [htargets] at hothers
  cases hothers
  rw [get?_sharedPlan, get?_sharedPlan, h.pipeline_eq]

/-- Two plans for the same request have the same pipeline for every target that their builds agree
on. So the browser flag of the environment changes no pipeline, the legacy flag only the client's,
the typescript flag and the package whose copies are merged only those of client and server, the
modules that are declared or provided only the server's, and an entry point only that of its
target. -/
theorem planRequested_independent
    (hplan : settings.planRequested stages env request = .ok plan)
    (hother : other.planRequested stages otherEnv request = .ok otherPlan) :
    (∀ target, AgreeOn target settings other env otherEnv →
      otherPlan.pipelines.get? target = plan.pipelines.get? target) ∧
    (∀ isBrowser, other = settings → otherEnv = { env with isBrowser } →
      otherPlan = { plan with env := otherEnv }) ∧
    (∀ legacyBuild, other = settings → otherEnv = { env with legacyBuild } →
      ∀ target, target ≠ .client →
        otherPlan.pipelines.get? target = plan.pipelines.get? target) ∧
    (∀ typescript dedupe, other = { settings with dedupe } → otherEnv = { env with typescript } →
      otherPlan.pipelines.get? .serviceWorker = plan.pipelines.get? .serviceWorker) ∧
    (∀ declared hostBuiltins, other = { settings with declared, hostBuiltins } → otherEnv = env →
      ∀ target, target ≠ .server →
        otherPlan.pipelines.get? target = plan.pipelines.get? target) ∧
    (∀ changed entries, (∀ target, target ≠ changed →
        TargetMap.get? entries target = settings.entries.get? target) →
      other = { settings with entries } → otherEnv = env →
      ∀ target, target ≠ changed →
        otherPlan.pipelines.get? target = plan.pipelines.get? target) := by
  have hagree : ∀ target, AgreeOn target settings other env otherEnv →
      otherPlan.pipelines.get? target = plan.pipelines.get? target :=
    fun target => get?_eq_of_agreeOn hplan hother
  refine ⟨hagree, ?_, ?_, ?_, ?_, ?_⟩
  · rintro isBrowser rfl rfl
    have hpipelines : otherPlan.pipelines = plan.pipelines := by
      apply TargetMap.ext_get?
      intro target
      exact hagree target { AgreeOn.refl target other env with }
    obtain ⟨-, -, targets, -, rfl⟩ := planRequested_eq_ok hplan
    obtain ⟨-, -, others, -, rfl⟩ := planRequested_eq_ok hother
    simp only [sharedPlan] at hpipelines ⊢
    rw [hpipelines]
  · rintro legacyBuild rfl rfl target htarget
    apply hagree
    exact { AgreeOn.refl target other env with legacyBuild := fun h => absurd h htarget }
  · rintro typescript dedupe rfl rfl
    apply hagree
    exact { AgreeOn.refl .serviceWorker settings env with
      typescript := fun h => absurd rfl h
      dedupe := fun h => absurd rfl h }
  · rintro declared hostBuiltins rfl rfl target htarget
    apply hagree
    exact { AgreeOn.refl target settings otherEnv with
      declared := fun h => absurd h htarget
      builtins := fun h => absurd h htarget }
  · rintro changed entries hentries rfl rfl target htarget
    apply hagree
    exact { AgreeOn.refl target settings otherEnv with entry := hentries target htarget }

end Plans

-- two builds that differ in all but the mode and the aliases

def crowded : Settings :=
  { forRoot "/app" with
    dedupe := none
    declared := NameSet.ofList ["left-pad"]
    entries := { client := some ⟨"src/client.js", "client"⟩ } }

theorem agreeOn_crowded : AgreeOn .serviceWorker (forRoot "/app") crowded
    ⟨.production, false, false, false⟩ ⟨.production, true, true, true⟩ where
  aliases := rfl
  extensions := rfl
  diagnosticCode := rfl
  frameworkNamespace := rfl
  mode := rfl
  entry := rfl
  legacyBuild h := by cases h
  typescript h := absurd rfl h
  dedupe h := absurd rfl h
  declared h := by cases h
  builtins h := by cases h

theorem crowded_serviceWorker : ∃ plan otherPlan,
    (forRoot "/app").planRequested StageId.all ⟨.production, false, false, false⟩ none = .ok plan ∧
    crowded.planRequested StageId.all ⟨.production, true, true, true⟩ none = .ok otherPlan ∧
    otherPlan.pipelines.get? .client ≠ plan.pipelines.get? .client ∧
    otherPlan.pipelines.get? .serviceWorker = plan.pipelines.get? .serviceWorker := by
  have hplan : (forRoot "/app").planRequested StageId.all ⟨.production, false, false, false⟩ none =
      .ok _ :=
    planTargets_of_sound ⟨by decide +kernel, by decide +kernel⟩ (by decide +kernel) Target.all
  have hother : crowded.planRequested StageId.all ⟨.production, true, true, true⟩ none = .ok _ :=
    planTargets_of_sound ⟨by decide +kernel, by decide +kernel⟩ (by decide +kernel) Target.all
  obtain ⟨hagree, -⟩ := planRequested_independent hplan hother
  exact ⟨_, _, hplan, hother, by decide +kernel, hagree .serviceWorker agreeOn_crowded⟩

end Settings
end StagedBuild
