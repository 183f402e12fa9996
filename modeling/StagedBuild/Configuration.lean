import StagedBuild.FileTree
import StagedBuild.Settings
import StagedBuild.Text.Blank
import StagedBuild.Toml.Reader

/-!
# Project configuration

A project may change its settings in a configuration file. What the file does not mention keeps its
default.

## Main definitions

* `Configuration`: what a file asks for.
* `Configuration.ofJson?`, `Configuration.ofToml?`: reading it.
* `Configuration.settings`: the settings of a project with that configuration.
* `Configuration.load`, `Configuration.loadOrDefault`: the configuration in a file tree.
-/

namespace StagedBuild

structure Configuration where
  /-- The alias table; an empty one stands for the default table. -/
  aliases : List AliasEntry := []
  extensions : Option (List String) := none
  /-- The package whose copies are merged; white space only stands for none. -/
  dedupe : Option String := none
  frameworkNamespace : Option String := none
  circularCode : Option String := none
  runtime : Option HostBuiltins := none
  typescript : Bool := false
  /-- Entry points by what should be the name of a target. -/
  entries : NameMap EntryPoint := .empty
deriving DecidableEq

namespace Configuration

/-- An alias with the path that it stands for. -/
def alias? (source : RecordSource) (json : Json) : Option AliasEntry := do
  let fields ← json.fields? source ["find", "replacement"]
  return {
    name := ← fields.required "find" Json.string?
    path := ← fields.required "replacement" Json.string? }

def runtime? (source : RecordSource) (json : Json) : Option HostBuiltins := do
  let fields ← json.fields? source ["name", "version", "builtins"]
  return {
    runtime := ← fields.required "name" Json.string?
    version := ← fields.required "version" Json.string?
    names := NameSet.ofList (← fields.required "builtins" (Json.listOf? Json.string?)) }

def entryPoint? (source : RecordSource) (json : Json) : Option EntryPoint := do
  let fields ← json.fields? source ["input", "output"]
  return {
    input := ← fields.required "input" Json.string?
    output := ← fields.required "output" Json.string? }

/-- How modules are looked for: extensions, and the package whose copies are merged. -/
def resolve? (source : RecordSource) (json : Json) : Option (Option (List String) × Option String) := do
  let fields ← json.fields? source ["extensions", "dedupe"]
  return (← fields.optional "extensions" (Json.listOf? Json.string?),
    ← fields.optional "dedupe" Json.string?)

/-- Which diagnostics are kept back: namespace and code. -/
def diagnostics? (source : RecordSource) (json : Json) : Option (Option String × Option String) := do
  let fields ← json.fields? source ["framework_namespace", "circular_code"]
  return (← fields.optional "framework_namespace" Json.string?,
    ← fields.optional "circular_code" Json.string?)

def build? (source : RecordSource) (json : Json) : Option Bool := do
  let fields ← json.fields? source ["typescript"]
  fields.withDefault "typescript" false Json.bool?

/-- The configuration that a value spells. -/
def ofJson? (source : RecordSource) (json : Json) : Option Configuration := do
  let fields ← json.fields? source
    ["alias", "resolve", "diagnostics", "runtime", "build", "entries"]
  let aliases ← fields.withDefault "alias" [] (Json.listOf? (alias? source))
  let (extensions, dedupe) ← fields.withDefault "resolve" (none, none) (resolve? source)
  let (frameworkNamespace, circularCode) ←
    fields.withDefault "diagnostics" (none, none) (diagnostics? source)
  let runtime ← fields.optional "runtime" (runtime? source)
  let typescript ← fields.withDefault "build" false (build? source)
  let entries ← fields.withDefault "entries" [] (Json.mapOf? (entryPoint? source))
  return { aliases, extensions, dedupe, frameworkNamespace, circularCode, runtime, typescript,
           entries := NameMap.ofList entries }

/-- The configuration that a configuration file's text spells. -/
def ofToml? (text : String) : Option Configuration :=
  (TomlTable.parse? text).bind fun table => ofJson? .toml (TomlValue.table .header table).toJson

def fileName : String := "bundleplan.toml"

/-- An entry point is given for something that is no target. -/
structure UnknownEntry where
  name : String
deriving DecidableEq, Repr

def UnknownEntry.message (failure : UnknownEntry) : String :=
  "[entries." ++ failure.name ++ "] in " ++ fileName

def UnknownEntry.cause (failure : UnknownEntry) : BuildFailure :=
  .unknownTarget failure.name

/-- The entry points by target; the first name that is no target decides the failure. -/
def targetEntries (entries : List (String × EntryPoint)) :
    Except UnknownEntry (List (Target × EntryPoint)) :=
  entries.mapM fun entry =>
    match Target.ofName? entry.1 with
    | some target => .ok (target, entry.2)
    | none => .error ⟨entry.1⟩

/-- A text without the white space around it, or none if nothing is left. -/
def trimmed? (text : String) : Option String :=
  if Text.trim text = "" then none else some (Text.trim text)

/-- The settings of the project in `root` with this configuration. The paths of aliases are seen from
the project's root. -/
def settings (config : Configuration) (root : String) : Except UnknownEntry Settings := do
  let defaults := Settings.forRoot root
  let entries ← targetEntries config.entries.entries
  return { defaults with
    aliases := if config.aliases.isEmpty then defaults.aliases
      else config.aliases.map fun entry => ⟨entry.name, Path.absolutize root entry.path⟩
    extensions := config.extensions.getD defaults.extensions
    dedupe := (config.dedupe.map trimmed?).getD defaults.dedupe
    frameworkNamespace := config.frameworkNamespace.getD defaults.frameworkNamespace
    diagnosticCode := config.circularCode.getD defaults.diagnosticCode
    hostBuiltins := config.runtime.getD defaults.hostBuiltins
    entries := TargetMap.ofList entries }

/-- Sources may be typed if the command line or the configuration says so. -/
def allowsTypescript (config : Configuration) (asked : Bool) : Bool :=
  asked || config.typescript

def pathIn (root : String) : String :=
  Path.join root fileName

/-- The path of a project's configuration file, if anything stands there. -/
def discover? (tree : FileTree) (root : String) : Option String :=
  (tree.at? (pathIn root)).map fun _ => pathIn root

/-- Why a configuration cannot be loaded. -/
inductive LoadFailure where
  | unreadable (path : String) (cause : FileFailure)
  | malformed (path : String)
deriving DecidableEq, Repr

def LoadFailure.message : LoadFailure → String
  | unreadable path _ => "read config file " ++ path
  | malformed path => "parse config file " ++ path

def load (tree : FileTree) (path : String) : Except LoadFailure Configuration :=
  match tree.read path with
  | .error cause => .error (.unreadable path cause)
  | .ok text =>
    match ofToml? text with
    | none => .error (.malformed path)
    | some config => .ok config

/-- The configuration of a project, which need not have a file for it. -/
def loadOrDefault (tree : FileTree) (root : String) : Except LoadFailure Configuration :=
  match discover? tree root with
  | none => .ok {}
  | some path => load tree path

end Configuration
end StagedBuild
