import StagedBuild.Alias.Entry
import StagedBuild.Stage.Id

/-!
# Stage options

What a stage has to know. The options of each stage are of their own kind, so they tell which stage
they belong to.

## Main definitions

* `StageOptions`: the options of all stages.
* `StageOptions.stageId`: the stage that options belong to.

## Design notes

Options are written as an object whose member `type` holds the key of the stage. The member may
stand anywhere, so the whole value has to be readable before the options are, other members
included. An array gives the key first and then the fields in order.
-/

namespace StagedBuild

/-- The code that components are compiled to. -/
inductive ComponentOutput where
  /-- Code that builds the page in a browser. -/
  | dom
  /-- Code that renders the page as a text. -/
  | ssr
deriving DecidableEq, Repr

namespace ComponentOutput

def name : ComponentOutput → String
  | dom => "dom"
  | ssr => "ssr"

def ofName? (name : String) : Option ComponentOutput :=
  [dom, ssr].find? fun output => output.name = name

theorem ofName?_name (output : ComponentOutput) : ofName? output.name = some output := by
  cases output <;> decide

/-- Beside the two usual spellings, an object with an empty object as value is accepted. -/
def ofJson? : Json → Option ComponentOutput
  | .object [(name, .object [])] => ofName? name
  | json => json.keyword?.bind ofName?

end ComponentOutput

structure ComponentOptions where
  output : ComponentOutput
  dev : Bool
  hydratable : Bool
  emitCss : Bool
  preprocessTypescript : Bool
deriving DecidableEq, Repr

structure LegacyOptions where
  extensions : List String
  runtimeHelpers : Bool
  exclude : List String
  browserslist : String
  plugins : List String
deriving DecidableEq, Repr

/-- The options of one stage. -/
inductive StageOptions where
  | aliasResolution (entries : List AliasEntry) (extensions : List String)
  /-- Texts to put in place of names. -/
  | envSubstitution (replacements : NameMap String)
  | componentCompilation (options : ComponentOptions)
  /-- Whether a package's fields for browsers count, and the package whose copies are merged. -/
  | moduleResolution (browser : Bool) (dedupe : Option String)
  | interopNormalization
  | typedSource (check : Bool)
  | legacyDownlevel (options : LegacyOptions)
  | minification (module : Bool)
deriving DecidableEq

namespace StageOptions

def stageId : StageOptions → StageId
  | aliasResolution .. => .aliasResolution
  | envSubstitution .. => .envSubstitution
  | componentCompilation .. => .componentCompilation
  | moduleResolution .. => .moduleResolution
  | interopNormalization => .interopNormalization
  | typedSource .. => .typedSource
  | legacyDownlevel .. => .legacyDownlevel
  | minification .. => .minification

/-- The fields of options as an object's members. -/
def members : StageOptions → List (String × Json)
  | aliasResolution entries extensions =>
    [("entries", Document.toJson entries), ("extensions", Document.toJson extensions)]
  | envSubstitution replacements => [("replacements", Document.toJson replacements)]
  | componentCompilation options =>
    [("generate", .string options.output.name), ("dev", .bool options.dev),
      ("hydratable", .bool options.hydratable), ("emit_css", .bool options.emitCss),
      ("preprocess_typescript", .bool options.preprocessTypescript)]
  | moduleResolution browser dedupe =>
    ("browser", .bool browser) :: (dedupe.map fun package => ("dedupe", .string package)).toList
  | interopNormalization => []
  | typedSource check => [("check", .bool check)]
  | legacyDownlevel options =>
    [("extensions", Document.toJson options.extensions),
      ("runtime_helpers", .bool options.runtimeHelpers),
      ("exclude", Document.toJson options.exclude),
      ("browserslist", .string options.browserslist),
      ("plugins", Document.toJson options.plugins)]
  | minification module => [("module", .bool module)]

/-- The key that a value gives, and the value without it. -/
def splitTag? : Json → Option (String × Json)
  | .object members =>
    match members.filter fun member => member.1 = "type" with
    | [(_, .string tag)] => some (tag, .object (members.filter fun member => member.1 ≠ "type"))
    | _ => none
  | .array (.string tag :: items) => some (tag, .array items)
  | _ => none

/-- The options of a stage, given the value without the key. -/
def ofFields? (id : StageId) (json : Json) : Option StageOptions :=
  match id with
  | .aliasResolution => do
    let fields ← json.fields? .json ["entries", "extensions"]
    return .aliasResolution (← fields.required "entries" Document.ofJson?)
      (← fields.required "extensions" Document.ofJson?)
  | .envSubstitution => do
    let fields ← json.fields? .json ["replacements"]
    return .envSubstitution (← fields.required "replacements" Document.ofJson?)
  | .componentCompilation => do
    let fields ← json.fields? .json
      ["generate", "dev", "hydratable", "emit_css", "preprocess_typescript"]
    return .componentCompilation {
      output := ← fields.required "generate" ComponentOutput.ofJson?
      dev := ← fields.required "dev" Json.bool?
      hydratable := ← fields.required "hydratable" Json.bool?
      emitCss := ← fields.required "emit_css" Json.bool?
      preprocessTypescript := ← fields.required "preprocess_typescript" Json.bool? }
  | .moduleResolution => do
    let fields ← json.fields? .json ["browser", "dedupe"]
    return .moduleResolution (← fields.required "browser" Json.bool?)
      (← fields.optional "dedupe" Json.string?)
  | .interopNormalization => (json.fields? .json []).map fun _ => .interopNormalization
  | .typedSource => do
    let fields ← json.fields? .json ["check"]
    return .typedSource (← fields.required "check" Json.bool?)
  | .legacyDownlevel => do
    let fields ← json.fields? .json
      ["extensions", "runtime_helpers", "exclude", "browserslist", "plugins"]
    return .legacyDownlevel {
      extensions := ← fields.required "extensions" Document.ofJson?
      runtimeHelpers := ← fields.required "runtime_helpers" Json.bool?
      exclude := ← fields.required "exclude" Document.ofJson?
      browserslist := ← fields.required "browserslist" Json.string?
      plugins := ← fields.required "plugins" Document.ofJson? }
  | .minification => do
    let fields ← json.fields? .json ["module"]
    return .minification (← fields.required "module" Json.bool?)

/-- An object with the key as member `type`, or an array that begins with the key. -/
instance : Document StageOptions where
  toJson options := .object (("type", .string options.stageId.key) :: options.members)
  ofJson? json := do
    let (tag, rest) ← splitTag? json
    let id ← StageId.ofKey? tag
    if json.isReadable then ofFields? id rest else none

end StageOptions
end StagedBuild
