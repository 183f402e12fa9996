import StagedBuild.BuildFailure
import StagedBuild.Text.Blank

/-!
# Build environment

The flags on which a build depends besides its settings.

## Main definitions

* `Mode`: development or production.
* `Environment`: mode and flags.
* `Environment.forTarget`: the environment as one target sees it.
-/

namespace StagedBuild

/-- What a build is meant for. -/
inductive Mode where
  | development
  | production
deriving DecidableEq, Repr

namespace Mode

def all : List Mode := [development, production]

def name : Mode → String
  | development => "development"
  | production => "production"

/-- The mode of a name, which must be spelled exactly. -/
def ofName? (name : String) : Option Mode :=
  all.find? fun mode => mode.name = name

/-- The mode that a text names. -/
def parse (text : String) : Except BuildFailure Mode :=
  match ofName? text with
  | some mode => .ok mode
  | none => .error (.unknownMode text)

def isDevelopment (mode : Mode) : Bool :=
  mode == development

def isProduction (mode : Mode) : Bool :=
  mode == production

theorem ofName?_name (mode : Mode) : ofName? mode.name = some mode := by
  cases mode <;> decide

instance : Document Mode where
  toJson mode := .string mode.name
  ofJson? json := json.keyword?.bind ofName?

end Mode

structure Environment where
  mode : Mode
  /-- The client bundle is also brought down to old browsers. -/
  legacyBuild : Bool
  /-- The code runs in a browser. -/
  isBrowser : Bool
  /-- Sources may be typed. -/
  typescript : Bool := false
deriving DecidableEq, Repr

namespace Environment

/-- The environment with the given mode, which may have white space around it. -/
def ofInputs (mode : String) (legacyBuild isBrowser typescript : Bool) :
    Except BuildFailure Environment := do
  let mode ← Mode.parse (Text.trim mode)
  return { mode, legacyBuild, isBrowser, typescript }

/-- The environment as a target sees it: the browser flag says where the target runs. -/
def forTarget (env : Environment) (target : Target) : Environment :=
  { env with isBrowser := target.runsInBrowser }

/-- A record; `typescript` may be left out. -/
instance : Document Environment where
  toJson env := .object [
    ("mode", Document.toJson env.mode),
    ("legacy_build", .bool env.legacyBuild),
    ("is_browser", .bool env.isBrowser),
    ("typescript", .bool env.typescript)]
  ofJson? json := do
    let fields ← json.fields? .json ["mode", "legacy_build", "is_browser", "typescript"]
    return {
      mode := ← fields.required "mode" Document.ofJson?
      legacyBuild := ← fields.required "legacy_build" Json.bool?
      isBrowser := ← fields.required "is_browser" Json.bool?
      typescript := ← fields.withDefault "typescript" false Json.bool? }

end Environment
end StagedBuild
