import StagedBuild.Execution.Run
import StagedBuild.FileTree

/-!
# Storing artifacts

An artifact is written below an output directory, in a file named for its output or else for its
target. An output that would lead outside that directory is refused.

## Main definitions

* `Artifact.stem`: the name of the file, without its ending.
* `leadsOutside`: a name that does not stay below the directory.
* `Artifact.pathIn?`: the path of the file.
* `Artifact.store`: writing the file.
-/

namespace StagedBuild

/-- Why an artifact is not stored. -/
inductive StoreFailure where
  /-- The output does not stay inside the directory. -/
  | outside (stem : String) (target : Target) (directory : String)
  | parentDirectory (path : String) (cause : FileFailure)
  | file (path : String) (cause : FileFailure)
deriving DecidableEq, Repr

def StoreFailure.fault : StoreFailure → Fault
  | outside stem target directory =>
    .ofMessage ("output `" ++ stem ++ "` of target " ++ target.name ++
      " is not a relative path inside " ++ directory)
  | parentDirectory path cause =>
    (Fault.ofMessage cause.message).within ("create parent dir for " ++ path)
  | file path cause => (Fault.ofMessage cause.message).within ("write " ++ path)

/-- A name leads outside when it is absolute or goes up at some part. -/
def leadsOutside (name : String) : Bool :=
  Path.isAbsolute name || (Path.parts name).contains ".."

namespace Artifact

/-- The name of the file, without its ending. -/
def stem (artifact : Artifact) : String :=
  artifact.output.getD artifact.target.name

/-- The path of the file below a directory. -/
def pathIn? (artifact : Artifact) (directory : String) : Except StoreFailure String :=
  if leadsOutside artifact.stem then .error (.outside artifact.stem artifact.target directory)
  else .ok (Path.join directory (artifact.stem ++ ".json"))

/-- Write the file. Directories that were made stay, even if the file cannot be written. -/
def store (directory : String) (tree : FileTree) (artifact : Artifact) :
    FileTree × Except StoreFailure Unit :=
  match artifact.pathIn? directory with
  | .error failure => (tree, .error failure)
  | .ok path =>
    match tree.ensureDirectory (Path.parent path) with
    | (tree, .error cause) => (tree, .error (.parentDirectory path cause))
    | (tree, .ok ()) =>
      match tree.write path (Document.pretty artifact) with
      | .error cause => (tree, .error (.file path cause))
      | .ok tree => (tree, .ok ())

/-- The sink that stores artifacts below a directory. -/
def storeSink (directory : String) : Sink FileTree := fun tree artifact =>
  let (tree, result) := artifact.store directory tree
  (tree, result.mapError StoreFailure.fault)

end Artifact
end StagedBuild
