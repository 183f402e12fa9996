import StagedBuild.BuildFailure
import StagedBuild.Json.Document
import StagedBuild.Text.Blank
import StagedBuild.Text.Segment

/-!
# Diagnostics

Warnings that a bundler prints. Those about import cycles inside the application framework itself
are of no use to the reader and are kept back.

## Main definitions

* `Diagnostic`: a warning.
* `DiagnosticPolicy`: which warnings are kept back.
* `PatternCompiler`: the namespaces of which a search pattern can be made.
* `DiagnosticFilter`: a policy with a namespace that can be looked for.
* `DiagnosticFilter.suppresses`, `DiagnosticFilter.forward`: the decision for one warning and for a
  list.

## Design notes

What a search pattern finds is fixed, but a compiler of patterns may refuse to make one, and does so
when it would become too large. Where that limit lies is the compiler's own affair. So whatever needs
a filter works with any compiler, and `PatternCompiler.sizeLimited` is the one that commands run with.
-/

namespace StagedBuild

structure Diagnostic where
  code : String
  message : String
deriving DecidableEq, Repr

instance : Document Diagnostic where
  toJson diagnostic := .object [("code", .string diagnostic.code), ("message", .string diagnostic.message)]
  ofJson? json := do
    let fields ← json.fields? .json ["code", "message"]
    return {
      code := ← fields.required "code" Json.string?
      message := ← fields.required "message" Json.string? }

/-- The code of the warnings to keep back, and the namespace that their message has to name. -/
structure DiagnosticPolicy where
  code : String
  namespaceName : String
deriving DecidableEq, Repr

namespace DiagnosticPolicy

/-- The code of a warning about an import cycle. -/
def circularDependency : String := "CIRCULAR_DEPENDENCY"

/-- The namespace of the packages of the application framework. -/
def defaultNamespace : String := "@sapper"

/-- Import cycles inside the application framework. -/
def default : DiagnosticPolicy := ⟨circularDependency, defaultNamespace⟩

instance : Document DiagnosticPolicy where
  toJson policy := .object [("code", .string policy.code), ("namespace", .string policy.namespaceName)]
  ofJson? json := do
    let fields ← json.fields? .json ["code", "namespace"]
    return {
      code := ← fields.required "code" Json.string?
      namespaceName := ← fields.required "namespace" Json.string? }

end DiagnosticPolicy

/-- What makes the search patterns that find a namespace between separators. -/
class PatternCompiler where
  /-- Why no pattern is made of a namespace, if none is. -/
  refusal? (namespaceName : String) : Option String

namespace PatternCompiler

/-- The bytes that a compiled pattern may take. -/
def sizeLimit : Nat := 10485760

/-- The bytes that a compiled pattern takes for each byte that it looks for. -/
def stateSize : Nat := 32

/-- Patterns that would take too many bytes are not made. -/
instance sizeLimited : PatternCompiler where
  refusal? namespaceName :=
    if sizeLimit < stateSize * namespaceName.utf8ByteSize then
      some ("Compiled regex exceeds size limit of " ++ sizeLimit.repr ++ " bytes.")
    else none

theorem sizeLimited_refusal?_eq_none_iff {namespaceName : String} :
    sizeLimited.refusal? namespaceName = none ↔
      stateSize * namespaceName.utf8ByteSize ≤ sizeLimit := by
  simp [refusal?]

end PatternCompiler

/-- A policy whose namespace can be looked for. -/
structure DiagnosticFilter where
  policy : DiagnosticPolicy
deriving DecidableEq, Repr

namespace DiagnosticFilter

section Making

variable [PatternCompiler]

/-- The filter of a policy. A namespace of white space only is refused, and so is one that no pattern
can be made of. -/
def ofPolicy (policy : DiagnosticPolicy) : Except BuildFailure DiagnosticFilter :=
  if Text.isBlankText policy.namespaceName then .error .blankNamespace
  else
    match PatternCompiler.refusal? policy.namespaceName with
    | some cause => .error (.refusedNamespace cause)
    | none => .ok ⟨policy⟩

/-- A namespace that filters can look for. -/
structure Searchable (namespaceName : String) : Prop where
  notBlank : Text.isBlankText namespaceName = false
  compiles : PatternCompiler.refusal? namespaceName = none

instance (namespaceName : String) : Decidable (Searchable namespaceName) :=
  decidable_of_iff (Text.isBlankText namespaceName = false ∧
    PatternCompiler.refusal? namespaceName = none) ⟨fun h => ⟨h.1, h.2⟩, fun h => ⟨h.1, h.2⟩⟩

variable {policy : DiagnosticPolicy}

theorem ofPolicy_of_blank (h : Text.isBlankText policy.namespaceName = true) :
    ofPolicy policy = .error .blankNamespace := by
  rw [ofPolicy, if_pos h]

theorem ofPolicy_of_refused {cause : String} (h : Text.isBlankText policy.namespaceName = false)
    (hcause : PatternCompiler.refusal? policy.namespaceName = some cause) :
    ofPolicy policy = .error (.refusedNamespace cause) := by
  rw [ofPolicy, if_neg (by simp [h]), hcause]

theorem ofPolicy_of_searchable (h : Searchable policy.namespaceName) :
    ofPolicy policy = .ok ⟨policy⟩ := by
  rw [ofPolicy, if_neg (by simp [h.notBlank]), h.compiles]

theorem ofPolicy_eq_ok_iff {filter : DiagnosticFilter} :
    ofPolicy policy = .ok filter ↔ Searchable policy.namespaceName ∧ filter = ⟨policy⟩ := by
  constructor
  · intro h
    cases hblank : Text.isBlankText policy.namespaceName with
    | true => cases (ofPolicy_of_blank hblank).symm.trans h
    | false =>
      cases hcause : PatternCompiler.refusal? policy.namespaceName with
      | some cause => cases (ofPolicy_of_refused hblank hcause).symm.trans h
      | none =>
        cases (ofPolicy_of_searchable ⟨hblank, hcause⟩).symm.trans h
        exact ⟨⟨hblank, hcause⟩, rfl⟩
  · rintro ⟨h, rfl⟩
    exact ofPolicy_of_searchable h

theorem ofPolicy_eq_error_iff {failure : BuildFailure} :
    ofPolicy policy = .error failure ↔
      (Text.isBlankText policy.namespaceName = true ∧ failure = .blankNamespace) ∨
      (Text.isBlankText policy.namespaceName = false ∧ ∃ cause,
        PatternCompiler.refusal? policy.namespaceName = some cause ∧
        failure = .refusedNamespace cause) := by
  rw [ofPolicy]
  cases hblank : Text.isBlankText policy.namespaceName <;>
    cases PatternCompiler.refusal? policy.namespaceName <;> simp [eq_comm]

end Making

/-- A warning is kept back when it has the policy's code and its message has the namespace as a
segment. -/
def suppresses (filter : DiagnosticFilter) (diagnostic : Diagnostic) : Bool :=
  diagnostic.code == filter.policy.code &&
    Text.hasSegment filter.policy.namespaceName diagnostic.message

/-- The warnings that are shown, in their order. -/
def forward (filter : DiagnosticFilter) (diagnostics : List Diagnostic) : List Diagnostic :=
  diagnostics.filter fun diagnostic => !filter.suppresses diagnostic

end DiagnosticFilter
end StagedBuild
