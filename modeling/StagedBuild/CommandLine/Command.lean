import StagedBuild.Alias.Resolution
import StagedBuild.Build
import StagedBuild.CommandLine.Failure
import StagedBuild.CommandLine.Request
import StagedBuild.Report.Markdown
import StagedBuild.Report.Outline

/-!
# Running a command

A command reads a file tree and what stands on its standard input. It prints a text or fails, and one
of the commands may also write files. Nothing is printed by a command that fails.

## Main definitions

* `CommandOutcome`: what a command leads to.
* `Request.run`: running a command.
* `runCommandLine`: the exit code, the text that is printed and the file tree of a command line.
-/

namespace StagedBuild

/-- What a command leads to: the text that it prints or the reason why it fails, and the files. -/
structure CommandOutcome where
  result : Except CommandFailure String
  tree : FileTree

/-- What makes a project: its root directory, its settings and its configuration. -/
structure Project where
  root : String
  settings : Settings
  config : Configuration

namespace Project

def load (tree : FileTree) (root : String) : Except CommandFailure Project := do
  let root ← match tree.canonical? root with
    | some root => .ok root
    | none => .error (.projectRoot root)
  let config ← (Configuration.loadOrDefault tree root).mapError .configuration
  let settings ← (config.settings root).mapError .unknownEntry
  return { root, settings, config }

end Project

variable [PatternCompiler]

namespace PlanRequest

/-- The mode that was asked for, without the white space around it. -/
def modeText (request : PlanRequest) : String :=
  Text.trim (request.mode.getD "")

/-- The settings and the environment that a plan is asked for with. A missing mode counts before all
else, an unknown one only after the project has been read. -/
def inputs (request : PlanRequest) (tree : FileTree) :
    Except CommandFailure (Settings × Environment) := do
  if request.modeText = "" then throw (.build .missingMode)
  let project ← Project.load tree request.root
  let declared ← (PackageManifest.declaredIn tree project.root).mapError .manifest
  let env ← (Environment.ofInputs request.modeText request.legacy true
    (project.config.allowsTypescript request.typescript)).mapError .build
  return ({ project.settings with declared }, env)

def plan (request : PlanRequest) (tree : FileTree) : Except CommandFailure Plan := do
  let (settings, env) ← request.inputs tree
  let planned :=
    if request.targets.isEmpty then settings.planAll Schedule.defaultStages env
    else settings.planSelected Schedule.defaultStages env request.targets
  planned.mapError .build

end PlanRequest

namespace Plan

def printed (plan : Plan) : PlanFormat → String
  | .json => Document.pretty plan ++ "\n"
  | .markdown => plan.markdown
  | .outline => plan.outline

def writeFile (tree : FileTree) (directory name content : String) :
    Except CommandFailure FileTree :=
  (tree.write (Path.join directory name) content).mapError (.writeFile directory name)

/-- Write the plan into a directory, as JSON and in Markdown. What was written before a failure
stays. -/
def writeTo (plan : Plan) (directory : String) (tree : FileTree) : CommandOutcome :=
  match tree.ensureDirectory directory with
  | (tree, .error cause) => ⟨.error (.makeDirectory directory cause), tree⟩
  | (tree, .ok ()) =>
    match writeFile tree directory "plan.json" (Document.pretty plan) with
    | .error failure => ⟨.error failure, tree⟩
    | .ok tree =>
      match writeFile tree directory "plan.md" plan.markdown with
      | .error failure => ⟨.error failure, tree⟩
      | .ok tree => ⟨.ok "", tree⟩

end Plan

/-- Plan, and print the plan or write it into a directory. -/
def PlanRequest.run (request : PlanRequest) (tree : FileTree) : CommandOutcome :=
  match request.plan tree with
  | .error failure => ⟨.error failure, tree⟩
  | .ok plan =>
    match request.outDir with
    | none => ⟨.ok (plan.printed request.format), tree⟩
    | some directory => plan.writeTo directory tree

/-- The file that a specifier means, or the lines that say that it means none. A package whose copies
are merged is named when the specifier belongs to it. -/
def resolveCommand (tree : FileTree) (root specifier : String) : Except CommandFailure String := do
  let project ← Project.load tree root
  let table ← project.settings.aliasTable.mapError .build
  let isFile (path : String) : Bool := tree.isFile (Path.join project.root path)
  match (table.resolve isFile specifier).path with
  | some path => return Text.unlines [path]
  | none =>
    let merged := project.settings.dedupe.filter fun package =>
      Text.isSegmentPrefix package specifier
    return Text.unlines (("unresolved: " ++ specifier) ::
      (merged.map fun package => "deduped: " ++ package).toList)

/-- The diagnostics that lines hold, blank lines passed over; the first line is number `number`. -/
def readDiagnostics : Nat → List String → Except CommandFailure (List Diagnostic)
  | _, [] => .ok []
  | number, line :: rest =>
    if Text.isBlankText line then readDiagnostics (number + 1) rest
    else
      match (Document.ofText? line : Option Diagnostic) with
      | none => .error (.malformedLine number)
      | some diagnostic => do return diagnostic :: (← readDiagnostics (number + 1) rest)

/-- The diagnostics of the input that are not kept back, one to a line. -/
def filterCommand (tree : FileTree) (root input : String) : Except CommandFailure String := do
  let project ← Project.load tree root
  let filter ← project.settings.diagnosticFilter.mapError .build
  let diagnostics ← readDiagnostics 1 (Text.lines input)
  return Text.unlines ((filter.forward diagnostics).map Document.text)

def explainCommand (text : String) : Except CommandFailure String :=
  match Guide.lookup? text with
  | some entry => .ok entry.page
  | none => .error (.unknownStage text)

def listCommand (asJson : Bool) : String :=
  if asJson then Guide.indexJson.pretty ++ "\n" else Guide.index

def Request.run (request : Request) (tree : FileTree) (input : String) : CommandOutcome :=
  match request with
  | .plan request => request.run tree
  | .resolve specifier root => ⟨resolveCommand tree root specifier, tree⟩
  | .filterDiagnostics root => ⟨filterCommand tree root input, tree⟩
  | .explain stage => ⟨explainCommand stage, tree⟩
  | .listStages asJson => ⟨.ok (listCommand asJson), tree⟩

def versionText : String := "bundleplan 0.1.0\n"

def usageText : String :=
  Text.unlines [
    "Usage: bundleplan <COMMAND>",
    "",
    "Commands:",
    "  plan                [--root DIR] [--mode MODE] [--legacy] [--typescript] [--target NAME]...",
    "                      [--format json|md|text] [--out-dir DIR]",
    "  resolve             SPECIFIER [--root DIR]",
    "  filter-diagnostics  [--root DIR]",
    "  explain             STAGE",
    "  list-stages         [--format text|json]",
    "  help                [COMMAND]"]

/-- What a command line leads to. -/
structure ProgramOutcome where
  exitCode : UInt32
  output : String
  /-- The reason for exit code 1. -/
  failure : Option CommandFailure
  tree : FileTree

/-- Run a command line. Exit code 1 stands for a command that failed, 2 for words that make no
command. -/
def runCommandLine (words : List String) (shell : ShellVariables) (tree : FileTree)
    (input : String) : ProgramOutcome :=
  match Request.parse shell words with
  | .error .help => ⟨0, usageText, none, tree⟩
  | .error .version => ⟨0, versionText, none, tree⟩
  | .error .misuse => ⟨2, "", none, tree⟩
  | .ok request =>
    let outcome := request.run tree input
    match outcome.result with
    | .ok output => ⟨0, output, none, outcome.tree⟩
    | .error failure => ⟨1, "", some failure, outcome.tree⟩

end StagedBuild
