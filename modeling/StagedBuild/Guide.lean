import StagedBuild.Schedule
import StagedBuild.Text.Lines

/-!
# Stage guide

What each stage does, for people to read.

## Main definitions

* `GuideEntry`: title, description and options of a stage.
* `Guide.entries`: an entry for each stage, in scheduling order.
* `Guide.lookup?`: the entry that a text names.
* `Guide.condition`: when the default schedule holds a stage, in words.
* `GuideEntry.page`, `Guide.index`, `Guide.indexJson`: the pages that are shown.
-/

namespace StagedBuild

structure GuideEntry where
  id : StageId
  title : String
  description : String
  options : String
deriving DecidableEq, Repr

namespace Guide

def title : StageId → String
  | .aliasResolution => "Alias Resolution"
  | .envSubstitution => "Environment Substitution"
  | .componentCompilation => "Component Compilation"
  | .moduleResolution => "Module Resolution"
  | .interopNormalization => "Interop Normalization"
  | .typedSource => "Typed Source"
  | .legacyDownlevel => "Legacy Downleveling"
  | .minification => "Minification"

/-- What a stage does to the modules, line by line. -/
def descriptionLines : StageId → List String
  | .aliasResolution => [
    "Rewrites import specifiers that start with a symbolic source-tree prefix",
    "(styles, components, pages, store, locales) to the physical directory behind it.",
    "",
    "A specifier matches an alias when it equals the alias name or continues with '/'.",
    "Candidates are tried in order: the path itself, the path with each configured",
    "extension, then <path>/index with each extension. The first existing file wins.",
    "When nothing matches, default module resolution takes over."]
  | .envSubstitution => [
    "Replaces compile-time constants in source text before anything else reads it:",
    "",
    "    process.browser       -> true | false (the runtime the target executes in)",
    "    process.env.NODE_ENV  -> \"development\" | \"production\""]
  | .componentCompilation => [
    "Compiles single-file UI components into JavaScript.",
    "",
    "The client build generates DOM code that hydrates server-rendered markup and emits",
    "component CSS. The server build generates SSR code. Both run a transpile-only",
    "TypeScript preprocessor. The service worker has no components."]
  | .moduleResolution => [
    "Resolves bare specifiers against installed packages.",
    "",
    "The client prefers browser-specific package entry points. Client and server keep a",
    "single copy of the UI framework package (and its subpaths) even when nested",
    "dependencies ship their own."]
  | .interopNormalization => [
    "Converts CommonJS modules into ES modules so they can be bundled alongside",
    "native ES modules."]
  | .typedSource => [
    "Strips type annotations from .ts modules. Runs for client and server when",
    "TypeScript support is enabled, right after interop normalization."]
  | .legacyDownlevel => [
    "Transpiles the client bundle to an older language level for legacy browsers.",
    "",
    "Covers .js .mjs .html .svelte .ts, injects runtime helpers as ES modules, supports",
    "dynamic import syntax and skips the transpiler's own helper packages."]
  | .minification => [
    "Shrinks production output. The client is minified as an ES module, the",
    "service worker as a classic script. Server output is never minified."]

def options : StageId → String
  | .aliasResolution => "entries (symbolic_name, physical_path), extensions"
  | .envSubstitution => "replacements (expression -> literal)"
  | .componentCompilation =>
    "generate (dom | ssr), dev, hydratable, emit_css, preprocess_typescript"
  | .moduleResolution => "browser, dedupe"
  | .interopNormalization => "(none)"
  | .typedSource => "check"
  | .legacyDownlevel => "extensions, runtime_helpers, exclude, browserslist, plugins"
  | .minification => "module"

def entryOf (id : StageId) : GuideEntry :=
  ⟨id, title id, Text.joinWith "\n" (descriptionLines id), options id⟩

/-- An entry for each stage, in scheduling order. -/
def entries : List GuideEntry :=
  StageId.all.map entryOf

/-- A text with its ASCII letters in lower case. -/
def lowerAscii (text : String) : String :=
  String.ofList (text.toList.map Char.toLower)

/-- The entry that a text names. Beside what a stage key may look like, ASCII letters may be in
either case. -/
def lookup? (text : String) : Option GuideEntry :=
  (StageId.parse? (lowerAscii text)).bind fun id => entries.find? (·.id == id)

def keys : List String :=
  entries.map fun entry => entry.id.key

/-- When the default schedule holds the stage, in words. The words `never` are for a stage that it
does not know. -/
def condition (never : String) (id : StageId) : String :=
  ((Schedule.definition? Schedule.defaultStages id).map StageId.rule).getD never

def ruler (c : Char) : String :=
  String.ofList (List.replicate 80 c)

end Guide

def GuideEntry.page (entry : GuideEntry) : String :=
  Text.unlines [
    Guide.ruler '=',
    "STAGE: " ++ entry.title,
    Guide.ruler '=',
    "",
    "Key:     " ++ entry.id.key,
    "When:    " ++ Guide.condition "not scheduled by the built-in planner" entry.id,
    "Options: " ++ entry.options,
    "",
    "DESCRIPTION",
    Guide.ruler '-',
    entry.description,
    ""]

namespace Guide

/-- The list of stages with the conditions under which they are scheduled. -/
def index : String :=
  Text.unlines (
    ["Stages in scheduling order:", "", "  KEY                      WHEN",
      "  ---                      ----"] ++
    entries.map (fun entry => "  " ++ entry.id.key ++ " " ++ condition "-" entry.id) ++
    ["", "Use 'bundleplan explain <key>' for details."])

def indexJson : Json :=
  .array (entries.map fun entry => .object [
    ("key", .string entry.id.key),
    ("title", .string entry.title),
    ("when", .string (condition "-" entry.id))])

end Guide
end StagedBuild
