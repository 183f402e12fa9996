import StagedBuild.Target

/-!
# Why a build cannot be planned

## Main definitions

* `BuildFailure`: the causes.
* `BuildFailure.kind`: the three kinds that reports tell apart.
* `BuildFailure.message`: the wording.
-/

namespace StagedBuild

/-- A reason for which nothing is planned. -/
inductive BuildFailure where
  | missingMode
  | unknownMode (text : String)
  | emptyAliasName
  /-- The namespace of the framework is empty or white space only. -/
  | blankNamespace
  /-- No search pattern can be made of the namespace of the framework. -/
  | refusedNamespace (cause : String)
  | duplicateAlias (name : String)
  | unknownTarget (name : String)
deriving DecidableEq, Repr

namespace BuildFailure

/-- The kinds of failure that reports tell apart. -/
inductive Kind where
  | configuration
  | duplicateAlias
  | unknownTarget
deriving DecidableEq, Repr

def Kind.token : Kind → String
  | configuration => "configuration"
  | duplicateAlias => "duplicate_alias"
  | unknownTarget => "unknown_target"

def kind : BuildFailure → Kind
  | missingMode | unknownMode _ | emptyAliasName | blankNamespace | refusedNamespace _ =>
    .configuration
  | duplicateAlias _ => .duplicateAlias
  | unknownTarget _ => .unknownTarget

def message : BuildFailure → String
  | missingMode => "configuration error: build mode is required (pass --mode or set NODE_ENV)"
  | unknownMode text =>
    "configuration error: unrecognized mode '" ++ text ++ "' (expected 'development' or 'production')"
  | emptyAliasName => "configuration error: alias symbolic name must not be empty"
  | blankNamespace => "configuration error: diagnostic framework namespace must not be empty"
  | refusedNamespace cause => "configuration error: framework namespace pattern: " ++ cause
  | duplicateAlias name => "duplicate alias `" ++ name ++ "`"
  | unknownTarget name =>
    "unknown target `" ++ name ++ "` (expected one of: client, server, serviceworker)"

end BuildFailure

def Target.parse (name : String) : Except BuildFailure Target :=
  match Target.ofName? name with
  | some target => .ok target
  | none => .error (.unknownTarget name)

namespace Target

theorem parse_name (target : Target) : parse target.name = .ok target := by
  rw [parse, ofName?_name]

theorem parse_eq_error {name : String} (h : ∀ target : Target, name ≠ target.name) :
    parse name = .error (.unknownTarget name) := by
  rw [parse, ofName?_eq_none h]

end Target
end StagedBuild
