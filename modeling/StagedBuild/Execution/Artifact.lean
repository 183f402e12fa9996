import StagedBuild.Target

/-!
# Artifacts

What a pipeline works on and what it leaves behind.

## Main definitions

* `ModuleGraph`: the modules of a bundle, from an entry module on.
* `Artifact`: the finished bundle of a target.
-/

namespace StagedBuild

/-- Modules with their contents. Only stages look inside. -/
structure ModuleGraph where
  entry : String
  modules : NameMap String
deriving DecidableEq

namespace ModuleGraph

/-- The graph of an entry module, before any module is read. -/
def ofEntry (entry : String) : ModuleGraph :=
  ⟨entry, .empty⟩

instance : Document ModuleGraph where
  toJson graph := .object [("entry", .string graph.entry), ("modules", Document.toJson graph.modules)]
  ofJson? json := do
    let fields ← json.fields? .json ["entry", "modules"]
    return {
      entry := ← fields.required "entry" Json.string?
      modules := ← fields.withDefault "modules" .empty Document.ofJson? }

end ModuleGraph

structure Artifact where
  target : Target
  /-- The name that the bundle gets, if the target has an entry point. -/
  output : Option String
  graph : ModuleGraph
deriving DecidableEq

/-- A missing output is not written. -/
instance : Document Artifact where
  toJson artifact := .object (
    ("target", Document.toJson artifact.target) ::
    ((artifact.output.map fun output => ("output", .string output)).toList ++
    [("graph", Document.toJson artifact.graph)]))
  ofJson? json := do
    let fields ← json.fields? .json ["target", "output", "graph"]
    return {
      target := ← fields.required "target" Document.ofJson?
      output := ← fields.optional "output" Json.string?
      graph := ← fields.required "graph" Document.ofJson? }

end StagedBuild
