import StagedBuild.Alias.Resolution
import StagedBuild.Proofs.Planning.Outcome
import StagedBuild.Proofs.Planning.Schedule

/-!
# Working from a plan alone

Whoever has a plan can make the alias table and the diagnostic filter of the build again: the
options of its alias stages hold the whole table, and its pipelines hold the policy.

## Main results

* `Settings.alias_options`: what the alias stages of a pipeline carry.
* `Settings.planRequested_rebuilds`: table and filter made from the plan act like those of the
  settings.
-/

namespace StagedBuild
namespace Settings

variable {settings : Settings} {stages : List StageId} {env : Environment}

theorem alias_options {target : Target} {stage : Stage}
    (h : stage ∈ (settings.pipeline stages (settings.sharedContext env) target).stages)
    (hid : stage.id = .aliasResolution) :
    stage.options = .aliasResolution settings.aliases settings.extensions := by
  rw [Schedule.options_of_mem h, hid]
  rfl

theorem aliasTable_of_sound (hsound : AliasTable.Sound settings.aliasNames) :
    settings.aliasTable = .ok ⟨settings.aliases, settings.extensions⟩ :=
  AliasTable.ofEntries_of_sound hsound settings.extensions

theorem diagnosticFilter_of_searchable [PatternCompiler]
    (hnamespace : DiagnosticFilter.Searchable settings.frameworkNamespace) :
    settings.diagnosticFilter = .ok ⟨⟨settings.diagnosticCode, settings.frameworkNamespace⟩⟩ :=
  DiagnosticFilter.ofPolicy_of_searchable hnamespace

/-- In a plan each pipeline stands under its own target. The options of each of its alias stages
list the aliases of the plan and the extensions of the settings, and they make a table that looks in
the same places as that of the settings and so finds the same files. The policy of each pipeline
makes a filter that decides like that of the settings. -/
theorem planRequested_rebuilds [PatternCompiler] {request : Option (List String)} {plan : Plan}
    (h : settings.planRequested stages env request = .ok plan) :
    ∃ table filter, settings.aliasTable = .ok table ∧ settings.diagnosticFilter = .ok filter ∧
      ∀ target pipeline, plan.pipelines.get? target = some pipeline →
        pipeline.target = target ∧
        (∀ stage ∈ pipeline.stages, stage.id = .aliasResolution →
          stage.options = .aliasResolution plan.aliases settings.extensions ∧
          ∃ rebuilt, AliasTable.ofEntries plan.aliases settings.extensions = .ok rebuilt ∧
            ∀ specifier, rebuilt.candidates specifier = table.candidates specifier ∧
              ∀ isFile, rebuilt.resolve isFile specifier = table.resolve isFile specifier) ∧
        ∃ rebuilt, DiagnosticFilter.ofPolicy pipeline.diagnostics = .ok rebuilt ∧
          ∀ diagnostic, rebuilt.suppresses diagnostic = filter.suppresses diagnostic := by
  obtain ⟨hsound, hnamespace, targets, -, rfl⟩ := planRequested_eq_ok h
  have htable := aliasTable_of_sound hsound
  have hfilter := diagnosticFilter_of_searchable hnamespace
  refine ⟨_, _, htable, hfilter, ?_⟩
  intro target pipeline hget
  have hpipeline : settings.pipeline stages (settings.sharedContext env) target = pipeline := by
    rw [get?_sharedPlan] at hget
    split at hget
    · exact Option.some.inj hget
    · cases hget
  subst hpipeline
  refine ⟨rfl, ?_, ?_⟩
  · intro stage hstage hid
    exact ⟨alias_options hstage hid, _, htable, fun specifier => ⟨rfl, fun isFile => rfl⟩⟩
  · exact ⟨_, hfilter, fun diagnostic => rfl⟩

theorem forRoot_rebuilds :
    ∃ plan, (forRoot "/app").planRequested Schedule.defaultStages ⟨.production, true, false, true⟩
        (some ["server", " client "]) = .ok plan ∧
      ∃ pipeline, plan.pipelines.get? .client = some pipeline ∧ pipeline.target = .client ∧
        ∃ stage ∈ pipeline.stages, stage.id = .aliasResolution ∧
          stage.options = .aliasResolution plan.aliases AliasTable.defaultExtensions := by
  have hsound : AliasTable.Sound (forRoot "/app").aliasNames :=
    ⟨by decide +kernel, by decide +kernel⟩
  have hnamespace : DiagnosticFilter.Searchable (forRoot "/app").frameworkNamespace := by
    decide +kernel
  have htargets : requestedTargets (some ["server", " client "]) = .ok [.server, .client] := by rfl
  have hplan : (forRoot "/app").planRequested Schedule.defaultStages
      ⟨.production, true, false, true⟩ (some ["server", " client "]) = .ok _ :=
    (planRequested_of_targets htargets).trans (planTargets_of_sound hsound hnamespace _)
  obtain ⟨table, filter, -, -, hpipelines⟩ := planRequested_rebuilds hplan
  obtain ⟨htarget, halias, -⟩ := hpipelines .client _ rfl
  refine ⟨_, hplan, _, rfl, htarget, _, List.mem_cons_self, rfl, ?_⟩
  exact (halias _ List.mem_cons_self rfl).1

end Settings
end StagedBuild
