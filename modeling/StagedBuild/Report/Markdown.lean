import StagedBuild.Plan
import StagedBuild.Report.Summary

/-!
# Plans in Markdown

A plan as a document with a heading for each target and a numbered line for each stage.

## Main definitions

* `Plan.markdownLines`: the lines of the document.
* `Plan.markdown`: the document.
-/

namespace StagedBuild

/-- A text between back quotes. -/
def inCode (text : String) : String :=
  "`" ++ text ++ "`"

def flagInCode (flag : Bool) : String :=
  inCode (if flag then "true" else "false")

/-- The line of a stage: its number, its key and, after a colon, what its options amount to. -/
def Stage.markdownLine (stage : Stage) : String :=
  let summary := stage.options.summary
  stage.ordinal.toNat.repr ++ ". " ++ inCode stage.id.key ++
    (if summary = "" then "" else ": " ++ summary)

def AliasEntry.markdownLine (entry : AliasEntry) : String :=
  "- " ++ inCode entry.name ++ " → " ++ inCode entry.path

/-- The lines of a pipeline, from its heading to the blank line after its stages. -/
def Pipeline.markdownLines (pipeline : Pipeline) : List String :=
  ["### " ++ pipeline.target.name, ""] ++
  (pipeline.entry.map fun entry =>
    "- Entry: " ++ inCode entry.input ++ " → " ++ inCode entry.output).toList ++
  ["- Suppressed diagnostics: " ++ inCode pipeline.diagnostics.code ++ " inside " ++
    inCode pipeline.diagnostics.namespaceName] ++
  (if pipeline.externals.isEmpty then []
    else ["- External: " ++ Text.joinWith ", " pipeline.externals.names]) ++
  [""] ++ pipeline.stages.map Stage.markdownLine ++ [""]

namespace Plan

def markdownLines (plan : Plan) : List String :=
  ["# bundleplan plan", "",
    "- Mode: " ++ inCode plan.env.mode.name,
    "- Legacy build: " ++ flagInCode plan.env.legacyBuild,
    "- Typescript: " ++ flagInCode plan.env.typescript,
    "- Targets: " ++ plan.pipelines.values.length.repr ++
      " (" ++ plan.totalStages.repr ++ " stages)", "",
    "## Aliases", ""] ++
  (if plan.aliases.isEmpty then ["_No aliases._"] else plan.aliases.map AliasEntry.markdownLine) ++
  ["", "## Targets", ""] ++
  (if plan.pipelines.values.isEmpty then ["_No targets planned._"]
    else plan.pipelines.values.flatMap Pipeline.markdownLines)

/-- The document: each line ends in a line feed. -/
def markdown (plan : Plan) : String :=
  Text.unlines plan.markdownLines

end Plan
end StagedBuild
