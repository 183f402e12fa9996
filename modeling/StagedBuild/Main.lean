import StagedBuild.CommandLine.Command

/-!
# The program

Takes a picture of the part of the file system that a command looks at, runs the command on it, and
carries out what the command did to the picture.
-/

namespace StagedBuild
namespace Program

/-- The paths whose state a request depends on, as far as they are known from the picture so far. -/
def consulted (request : Request) (tree : FileTree) : List String :=
  let projectPaths (root : String) : List String :=
    [root, Configuration.pathIn root, Path.join root PackageManifest.fileName]
  match request with
  | .plan request =>
    projectPaths request.root ++
      match request.outDir with
      | none => []
      | some directory =>
        [directory, Path.join directory "plan.json", Path.join directory "plan.md"]
  | .resolve specifier root =>
    projectPaths root ++
      match Project.load tree root with
      | .error _ => []
      | .ok project =>
        match project.settings.aliasTable with
        | .error _ => []
        | .ok table => (table.candidates specifier).map (Path.join project.root)
  | .filterDiagnostics root => projectPaths root
  | .explain _ | .listStages _ => []

/-- The location that a path leads to when nothing stands in the way. -/
def plainLocation (here : List String) (path : String) : List String :=
  (Path.names path).foldl
    (fun location part => if part = ".." then location.dropLast else location ++ [part])
    (if Path.isAbsolute path then [] else here)

/-- What is read of a file. -/
def readNode (path : String) : IO FileNode := do
  try return .file (← IO.FS.readFile path)
  catch _ => return .unreadable

/-- What stands at a path of the file system, if anything does. -/
def look (path : String) : IO (Option FileNode) := do
  try
    let place ← IO.FS.realPath path
    if ← place.isDir then return some .directory
    return some (← readNode path)
  catch _ => return none

/-- The picture with what stands at a path and above it. -/
def photograph (tree : FileTree) (path : String) : IO FileTree := do
  let mut tree := tree
  for location in leadingParts (plainLocation tree.here path) do
    if let some node ← look (FileTree.pathOf location) then
      tree := tree.set location node
  return tree

/-- Carry out what was done to the picture. -/
def carryOut (before after : FileTree) : IO Unit := do
  for (location, node) in after.nodes.reverse do
    if before.nodes.lookup location ≠ some node then
      match node with
      | .directory => IO.FS.createDirAll (FileTree.pathOf location)
      | .file content => IO.FS.writeFile (FileTree.pathOf location) content
      | .unreadable => pure ()  -- commands write texts only

/-- All that stands on the standard input. -/
partial def readInput (stream : IO.FS.Stream) (sofar : String) : IO String := do
  let line ← stream.getLine
  if line.isEmpty then return sofar else readInput stream (sofar ++ line)

/-- The picture that a command line needs. The candidates for a specifier are known only when the
project has been looked at, hence the second round. -/
def picture (words : List String) (shell : ShellVariables) : IO FileTree := do
  let here ← IO.FS.realPath "."
  let mut tree := FileTree.standingAt (Path.names here.toString)
  if let .ok request := Request.parse shell words then
    for _ in [1, 2] do
      for path in consulted request tree do
        tree ← photograph tree path
  return tree

/-- The standard input, if the command reads it. -/
def inputFor (words : List String) (shell : ShellVariables) : IO String :=
  match Request.parse shell words with
  | .ok (.filterDiagnostics _) => do readInput (← IO.getStdin) ""
  | _ => return ""

end Program
end StagedBuild

open StagedBuild in
def main (words : List String) : IO UInt32 := do
  let shell : ShellVariables := {
    nodeEnv := ← IO.getEnv "NODE_ENV"
    legacyBuild := ← IO.getEnv "BUNDLEPLAN_LEGACY_BUILD" }
  let tree ← Program.picture words shell
  let outcome := runCommandLine words shell tree (← Program.inputFor words shell)
  Program.carryOut tree outcome.tree
  IO.print outcome.output
  if let some failure := outcome.failure then
    IO.eprintln (Text.joinWith "\n" ("ERROR " :: failure.message :: failure.causes))
  if outcome.exitCode = 2 then IO.eprint usageText
  return outcome.exitCode
