import StagedBuild.Alias.Table
import StagedBuild.Diagnostic
import StagedBuild.Environment
import StagedBuild.Stage.Options

/-!
# Stage definitions

For each stage: when it is part of a target's pipeline, and with which options.

## Main definitions

* `PlanContext`: what the options of a stage may depend on.
* `StageId.applies`: the stage belongs into the pipeline of a target.
* `StageId.options`: the options that it gets there.
* `StageId.rule`: the condition in words.
-/

namespace StagedBuild

/-- What the planning of every target shares. -/
structure PlanContext where
  env : Environment
  aliases : AliasTable
  /-- The package whose copies are merged, if any. -/
  dedupe : Option String
  diagnostics : DiagnosticPolicy
deriving DecidableEq

namespace PlanContext

/-- The user interface framework, of which a bundle should hold one copy. -/
def defaultDedupe : Option String := some "svelte"

def forTarget (context : PlanContext) (target : Target) : PlanContext :=
  { context with env := context.env.forTarget target }

end PlanContext

namespace StageId

/-- The stage belongs into the pipeline of a target, given the environment as the target sees it. -/
def applies (id : StageId) (target : Target) (env : Environment) : Bool :=
  match id with
  | aliasResolution | envSubstitution | moduleResolution | interopNormalization => true
  | componentCompilation => target != .serviceWorker
  | typedSource => env.typescript && target != .serviceWorker
  | legacyDownlevel => env.legacyBuild && target == .client
  | minification => env.mode.isProduction && target != .server

/-- The flag that tells code whether it runs in a browser. -/
def browserFlag : String := "process.browser"

/-- The variable that tells code the build mode. -/
def modeVariable : String := "process.env.NODE_ENV"

/-- What names are replaced by: the browser flag as a word, and the mode as a string literal. -/
def replacements (env : Environment) : NameMap String :=
  NameMap.ofList [
    (browserFlag, if env.isBrowser then "true" else "false"),
    (modeVariable, (Json.string env.mode.name).compact)]

def legacyOptions : LegacyOptions where
  extensions := [".js", ".mjs", ".html", ".svelte", ".ts"]
  runtimeHelpers := true
  exclude := ["node_modules/@babel/**"]
  browserslist := "> 0.25%, not dead"
  plugins := ["syntax-dynamic-import", "transform-runtime:esm"]

/-- The options of a stage for a target. The client's components can take over a rendered page and
bring their styles, the server's are rendered as text. The service worker merges no copies. -/
def options (id : StageId) (target : Target) (context : PlanContext) : StageOptions :=
  let forClient := target == .client
  match id with
  | aliasResolution => .aliasResolution context.aliases.entries context.aliases.extensions
  | envSubstitution => .envSubstitution (replacements context.env)
  | componentCompilation => .componentCompilation {
      output := if forClient then .dom else .ssr
      dev := context.env.mode.isDevelopment
      hydratable := forClient
      emitCss := forClient
      preprocessTypescript := true }
  | moduleResolution =>
    .moduleResolution forClient (if target = .serviceWorker then none else context.dedupe)
  | interopNormalization => .interopNormalization
  | typedSource => .typedSource false
  | legacyDownlevel => .legacyDownlevel legacyOptions
  | minification => .minification forClient

/-- When the stage is scheduled, in words. -/
def rule : StageId → String
  | aliasResolution => "always, first, for every target"
  | envSubstitution =>
    "always, second, for every target; browser flag follows the target runtime"
  | componentCompilation =>
    "client (hydratable, CSS-emitting) and server (SSR); never serviceworker"
  | moduleResolution =>
    "always; client and server dedupe the UI framework, client resolves browser fields"
  | interopNormalization => "always, for every target"
  | typedSource => "client and server when typescript is enabled, after interop-normalization"
  | legacyDownlevel => "client only, when the legacy build flag is set"
  | minification => "client and serviceworker in production; never server"

end StageId
end StagedBuild
