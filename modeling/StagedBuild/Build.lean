import StagedBuild.Schedule
import StagedBuild.Settings

/-!
# Builds

Settings and an environment make a plan for all targets, or for some of them by name.

## Main definitions

* `Settings.pipeline`: the pipeline of one target.
* `Settings.planTargets`: the plan for a list of targets.
* `Settings.planAll`, `Settings.planSelected`: all targets, or the named ones.
-/

namespace StagedBuild
namespace Settings

def pipeline (settings : Settings) (stages : List StageId) (context : PlanContext)
    (target : Target) : Pipeline :=
  { Schedule.pipeline stages target context with
    entry := settings.entries.get? target
    externals := Externals.forTarget settings.hostBuiltins settings.declared target }

variable [PatternCompiler]

/-- What the planning of every target shares. An alias that is refused counts before a namespace
that is. -/
def planContext (settings : Settings) (env : Environment) : Except BuildFailure PlanContext := do
  let aliases ← settings.aliasTable
  let filter ← settings.diagnosticFilter
  return { env, aliases, dedupe := settings.dedupe, diagnostics := filter.policy }

def planTargets (settings : Settings) (stages : List StageId) (env : Environment)
    (targets : List Target) : Except BuildFailure Plan := do
  let context ← settings.planContext env
  return {
    schema := Plan.currentSchema
    env
    aliases := context.aliases.entries
    pipelines := TargetMap.ofList
      (targets.map fun target => (target, settings.pipeline stages context target)) }

def planAll (settings : Settings) (stages : List StageId) (env : Environment) :
    Except BuildFailure Plan :=
  settings.planTargets stages env Target.all

/-- The targets that a list of texts names, with white space around each name passed over. -/
def selectTargets (names : List String) : Except BuildFailure (List Target) :=
  names.mapM fun name => Target.parse (Text.trim name)

/-- The plan for the named targets. The names are looked at before anything else. -/
def planSelected (settings : Settings) (stages : List StageId) (env : Environment)
    (names : List String) : Except BuildFailure Plan := do
  let targets ← selectTargets names
  settings.planTargets stages env targets

end Settings
end StagedBuild
