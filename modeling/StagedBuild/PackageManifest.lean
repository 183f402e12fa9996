import StagedBuild.Json.Document
import StagedBuild.FileTree

/-!
# Package manifests

A project declares its dependencies in a manifest. Only the names count; what stands beside them
need not make sense, but it has to be readable.

## Main definitions

* `PackageManifest.dependencies?`: the names that a manifest's text declares.
* `PackageManifest.declaredIn`: the names that a project declares.
-/

namespace StagedBuild
namespace PackageManifest

/-- A value that is kept without being looked at. -/
def anyValue? (json : Json) : Option Unit :=
  if json.isReadable then some () else none

/-- The names below `dependencies` in a manifest's text. -/
def dependencies? (text : String) : Option NameSet := do
  let json ← Json.parse? text
  let fields ← json.fields? .json ["dependencies"]
  let entries ← fields.withDefault "dependencies" [] (Json.mapOf? anyValue?)
  return NameSet.ofList (entries.map (·.1))

def fileName : String := "package.json"

/-- Why the names that a project declares are not known. -/
inductive Failure where
  | unreadable (path : String) (cause : FileFailure)
  /-- What stands at the path is no manifest. -/
  | malformed (path : String)
deriving DecidableEq, Repr

def Failure.message : Failure → String
  | unreadable path cause => "failed to read from file `" ++ path ++ "`: " ++ cause.message
  | malformed path => "parse " ++ path

/-- The names that the manifest at a path declares; without a file there are none. -/
def declaredAt (tree : FileTree) (path : String) : Except Failure NameSet :=
  if tree.isFile path then
    match tree.read path with
    | .error cause => .error (.unreadable path cause)
    | .ok text =>
      match dependencies? text with
      | none => .error (.malformed path)
      | some names => .ok names
  else .ok .empty

/-- The names that the project in a directory declares. -/
def declaredIn (tree : FileTree) (root : String) : Except Failure NameSet :=
  declaredAt tree (Path.join root fileName)

end PackageManifest
end StagedBuild
