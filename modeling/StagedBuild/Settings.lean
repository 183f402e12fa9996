import StagedBuild.Alias.Table
import StagedBuild.Diagnostic
import StagedBuild.Externals
import StagedBuild.Plan
import StagedBuild.Stage.Definition

/-!
# Build settings

All that a build depends on besides its environment.
-/

namespace StagedBuild

structure Settings where
  projectRoot : String
  aliases : List AliasEntry
  extensions : List String
  /-- The package whose copies are merged, if any. -/
  dedupe : Option String
  diagnosticCode : String
  frameworkNamespace : String
  /-- The names that the project declares as dependencies. -/
  declared : NameSet
  hostBuiltins : HostBuiltins
  entries : TargetMap EntryPoint
deriving DecidableEq

namespace Settings

/-- The settings of a project that asks for nothing. -/
def forRoot (projectRoot : String) : Settings where
  projectRoot
  aliases := AliasTable.defaultEntries projectRoot
  extensions := AliasTable.defaultExtensions
  dedupe := PlanContext.defaultDedupe
  diagnosticCode := DiagnosticPolicy.circularDependency
  frameworkNamespace := DiagnosticPolicy.defaultNamespace
  declared := .empty
  hostBuiltins := .node20
  entries := .empty

instance : Inhabited Settings := ⟨forRoot "."⟩

/-- The table of the aliases that the settings list. -/
def aliasTable (settings : Settings) : Except BuildFailure AliasTable :=
  AliasTable.ofEntries settings.aliases settings.extensions

/-- The filter for the diagnostics that the settings name. -/
def diagnosticFilter [PatternCompiler] (settings : Settings) : Except BuildFailure DiagnosticFilter :=
  DiagnosticFilter.ofPolicy ⟨settings.diagnosticCode, settings.frameworkNamespace⟩

end Settings
end StagedBuild
