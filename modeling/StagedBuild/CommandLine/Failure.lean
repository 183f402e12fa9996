import StagedBuild.Configuration
import StagedBuild.Guide
import StagedBuild.PackageManifest

/-!
# Why a command fails

## Main definitions

* `CommandFailure`: the causes.
* `CommandFailure.message`: the outermost message.
* `CommandFailure.causes`: the messages behind it.
-/

namespace StagedBuild

/-- Why a command fails. -/
inductive CommandFailure where
  | build (failure : BuildFailure)
  | projectRoot (root : String)
  | configuration (failure : Configuration.LoadFailure)
  | unknownEntry (failure : Configuration.UnknownEntry)
  | manifest (failure : PackageManifest.Failure)
  | makeDirectory (directory : String) (cause : FileFailure)
  | writeFile (directory name : String) (cause : FileFailure)
  /-- A line of the input, counted from one, is no diagnostic. -/
  | malformedLine (number : Nat)
  | unknownStage (text : String)
deriving DecidableEq, Repr

namespace CommandFailure

/-- The outermost message. -/
def message : CommandFailure → String
  | build failure => failure.message
  | projectRoot root => "project root " ++ root
  | configuration _ => "load " ++ Configuration.fileName ++ " config"
  | unknownEntry failure => failure.message
  | manifest _ => "read declared dependencies"
  | makeDirectory directory _ => "create " ++ directory
  | writeFile directory name _ => "write " ++ directory ++ "/" ++ name
  | malformedLine number => "parse diagnostic on line " ++ number.repr
  | unknownStage text =>
    "Unknown stage: '" ++ text ++ "'\n\nAvailable stages: " ++ Text.joinWith ", " Guide.keys

/-- The messages behind the outermost one, next outermost first. -/
def causes : CommandFailure → List String
  | configuration failure => [failure.message]
  | unknownEntry failure => [failure.cause.message]
  | manifest failure => [failure.message]
  | makeDirectory _ cause => [cause.message]
  | writeFile _ _ cause => [cause.message]
  | _ => []

end CommandFailure
end StagedBuild
