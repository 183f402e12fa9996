import StagedBuild.Json.Document

/-!
# Alias entries

An alias names a directory of the source tree.
-/

namespace StagedBuild

structure AliasEntry where
  name : String
  /-- The directory; slashes at its end do not matter. -/
  path : String
deriving DecidableEq, Repr

instance : Document AliasEntry where
  toJson entry := .object [("symbolic_name", .string entry.name), ("physical_path", .string entry.path)]
  ofJson? json := do
    let fields ← json.fields? .json ["symbolic_name", "physical_path"]
    return {
      name := ← fields.required "symbolic_name" Json.string?
      path := ← fields.required "physical_path" Json.string? }

end StagedBuild
