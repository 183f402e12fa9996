import StagedBuild.Json.Document
import StagedBuild.Text.Blank

/-!
# Stage identifiers

## Main definitions

* `StageId`: the stages, in scheduling order.
* `StageId.key`, `StageId.ofKey?`: the exact names, as documents spell them.
* `StageId.parse?`: the looser spelling that people may type.
-/

namespace StagedBuild

/-- The steps that a pipeline can hold. -/
inductive StageId where
  | aliasResolution
  | envSubstitution
  | componentCompilation
  | moduleResolution
  | interopNormalization
  | typedSource
  | legacyDownlevel
  | minification
deriving DecidableEq, Repr

namespace StageId

/-- All stages in scheduling order. -/
def all : List StageId :=
  [aliasResolution, envSubstitution, componentCompilation, moduleResolution, interopNormalization,
    typedSource, legacyDownlevel, minification]

def key : StageId → String
  | aliasResolution => "alias_resolution"
  | envSubstitution => "env_substitution"
  | componentCompilation => "component_compilation"
  | moduleResolution => "module_resolution"
  | interopNormalization => "interop_normalization"
  | typedSource => "typed_source"
  | legacyDownlevel => "legacy_downlevel"
  | minification => "minification"

/-- The stage of a key, which must be spelled exactly. -/
def ofKey? (key : String) : Option StageId :=
  all.find? fun id => id.key = key

/-- A text with an underscore for each dash. -/
def underscored (text : String) : String :=
  String.ofList (text.toList.map fun c => if c = '-' then '_' else c)

/-- The stage that a text names: white space around the key is passed over, and a dash may stand
for an underscore. -/
def parse? (text : String) : Option StageId :=
  ofKey? (underscored (Text.trim text))

theorem mem_all (id : StageId) : id ∈ all := by
  cases id <;> decide

theorem ofKey?_key (id : StageId) : ofKey? id.key = some id := by
  cases id <;> decide

instance : Document StageId where
  toJson id := .string id.key
  ofJson? json := json.keyword?.bind ofKey?

end StageId
end StagedBuild
