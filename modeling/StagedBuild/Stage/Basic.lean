import StagedBuild.Stage.Options

/-!
# Planned stages

A stage of a pipeline is numbered from one and carries its options.
-/

namespace StagedBuild

/-- A stage at its place in a pipeline. -/
structure Stage where
  id : StageId
  ordinal : UInt32
  options : StageOptions
deriving DecidableEq

namespace Stage

/-- The stage that the options belong to, at the given place. -/
def ofOptions (ordinal : UInt32) (options : StageOptions) : Stage :=
  { id := options.stageId, ordinal, options }

instance : Document Stage where
  toJson stage := .object [
    ("id", Document.toJson stage.id),
    ("ordinal", Document.toJson stage.ordinal),
    ("options", Document.toJson stage.options)]
  ofJson? json := do
    let fields ← json.fields? .json ["id", "ordinal", "options"]
    return {
      id := ← fields.required "id" Document.ofJson?
      ordinal := ← fields.required "ordinal" Document.ofJson?
      options := ← fields.required "options" Document.ofJson? }

end Stage
end StagedBuild
