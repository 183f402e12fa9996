import Mathlib.Data.List.Perm.Basic
import StagedBuild.Diagnostic
import StagedBuild.Proofs.Text.Segment
import StagedBuild.Proofs.Text.Trim

/-!
# What a filter keeps back

A filter looks for its namespace character by character, with a slash of either kind on both sides.
What it shows of a list of warnings is what the list holds besides those it keeps back.

## Main results

* `Text.segmentIn_iff_append`: a segment as a way to take the message apart.
* `DiagnosticFilter.suppresses_iff`: which warnings are kept back.
* `DiagnosticFilter.eq_forward_iff`: the shown warnings, by their order and number.
-/

namespace StagedBuild

-- ════════════════════════════════════════════════════════════════════════
-- Segments of a message
-- ════════════════════════════════════════════════════════════════════════

namespace Text

theorem isSeparator_iff {c : Char} : isSeparator c = true ↔ c = '/' ∨ c = '\\' := by
  rw [isSeparator, Bool.or_eq_true, beq_iff_eq, beq_iff_eq]

/-- A message has the name as a segment when it is the name between two slashes of either kind,
with any text around them. -/
theorem segmentIn_iff_append {name message : String} :
    SegmentIn name message ↔ ∃ (before after : String) (c d : Char),
      (c = '/' ∨ c = '\\') ∧ (d = '/' ∨ d = '\\') ∧
      message = before ++ String.singleton c ++ name ++ String.singleton d ++ after := by
  constructor
  · rintro ⟨before, after, c, d, hc, hd, hmessage⟩
    refine ⟨.ofList before, .ofList after, c, d, isSeparator_iff.1 hc, isSeparator_iff.1 hd, ?_⟩
    apply String.toList_inj.1
    simp [hmessage]
  · rintro ⟨before, after, c, d, hc, hd, rfl⟩
    refine ⟨before.toList, after.toList, c, d, isSeparator_iff.2 hc, isSeparator_iff.2 hd, ?_⟩
    simp

end Text

-- ════════════════════════════════════════════════════════════════════════
-- Lists of warnings
-- ════════════════════════════════════════════════════════════════════════

/-- The elements with a property are the only part of a list that has each of them as often as the
list does and nothing else. -/
theorem eq_filter_iff {α : Type} [DecidableEq α] {p : α → Bool} {xs ys : List α} :
    ys = xs.filter p ↔ ys.Sublist xs ∧ ∀ x, ys.count x = if p x then xs.count x else 0 := by
  have hcount : ∀ x, (xs.filter p).count x = if p x then xs.count x else 0 := by
    intro x
    split
    · next hx => exact List.count_filter hx
    · next hx => exact List.count_eq_zero.2 fun hmem => hx (List.mem_filter.1 hmem).2
  constructor
  · rintro rfl
    exact ⟨List.filter_sublist, hcount⟩
  · rintro ⟨hsublist, hys⟩
    have hperm : ys.Perm (xs.filter p) := List.perm_iff_count.2 fun x => (hys x).trans (hcount x).symm
    have hall : ys.filter p = ys := by
      rw [List.filter_eq_self]
      intro x hmem
      exact (List.mem_filter.1 (hperm.mem_iff.1 hmem)).2
    have hpart : ys.Sublist (xs.filter p) := hall ▸ hsublist.filter p
    exact hpart.eq_of_length hperm.length_eq

namespace DiagnosticFilter

theorem suppresses_iff {filter : DiagnosticFilter} {diagnostic : Diagnostic} :
    filter.suppresses diagnostic = true ↔ diagnostic.code = filter.policy.code ∧
      Text.SegmentIn filter.policy.namespaceName diagnostic.message := by
  rw [suppresses, Bool.and_eq_true, beq_iff_eq, Text.hasSegment_iff]

section Lists

variable (filter : DiagnosticFilter)

theorem forward_append (first second : List Diagnostic) :
    filter.forward (first ++ second) = filter.forward first ++ filter.forward second := by
  simp only [forward, List.filter_append]

theorem forward_forward (diagnostics : List Diagnostic) :
    filter.forward (filter.forward diagnostics) = filter.forward diagnostics := by
  rw [forward, forward, List.filter_filter]
  simp only [Bool.and_self]

/-- What is shown keeps its order, and a warning is shown either every time or never. -/
theorem eq_forward_iff {diagnostics shown : List Diagnostic} :
    shown = filter.forward diagnostics ↔ shown.Sublist diagnostics ∧ ∀ diagnostic,
      shown.count diagnostic =
        if filter.suppresses diagnostic then 0 else diagnostics.count diagnostic := by
  rw [forward, eq_filter_iff]
  refine and_congr_right fun _ => forall_congr' fun diagnostic => ?_
  cases filter.suppresses diagnostic <;> simp

end Lists

/-- Any namespace with a character that is not white space makes a filter, unless it is too large for
a pattern. The filter keeps back the warnings of its code whose message has the namespace, taken
literally, between two slashes of either kind. Of a list it shows what it does not keep back, in its
order and as often as it is listed; what is shown is shown again as it is, and lists can be filtered
piece by piece. -/
theorem filters_literally [PatternCompiler] {policy : DiagnosticPolicy}
    (hnamespace : ∃ c ∈ policy.namespaceName.toList, Text.isBlank c = false)
    (hcompiles : PatternCompiler.refusal? policy.namespaceName = none) :
    ∃ filter, ofPolicy policy = .ok filter ∧
      (∀ diagnostic, filter.suppresses diagnostic = true ↔ diagnostic.code = policy.code ∧
        ∃ (before after : String) (c d : Char), (c = '/' ∨ c = '\\') ∧ (d = '/' ∨ d = '\\') ∧
          diagnostic.message = before ++ String.singleton c ++ policy.namespaceName ++
            String.singleton d ++ after) ∧
      (∀ diagnostics shown, shown = filter.forward diagnostics ↔
        shown.Sublist diagnostics ∧ ∀ diagnostic, shown.count diagnostic =
          if filter.suppresses diagnostic then 0 else diagnostics.count diagnostic) ∧
      (∀ diagnostics, filter.forward (filter.forward diagnostics) = filter.forward diagnostics) ∧
      ∀ first second, filter.forward (first ++ second) =
        filter.forward first ++ filter.forward second := by
  have hblank : Text.isBlankText policy.namespaceName = false :=
    Text.isBlankText_eq_false_iff.2 hnamespace
  refine ⟨⟨policy⟩, ofPolicy_of_searchable ⟨hblank, hcompiles⟩, ?_, ?_, forward_forward _,
    forward_append _⟩
  · intro diagnostic
    rw [suppresses_iff, Text.segmentIn_iff_append]
  · intro diagnostics shown
    exact eq_forward_iff _

-- the message begins like the namespace between slashes and has it only later

def dottedPolicy : DiagnosticPolicy := ⟨"CYCLE", ".a/.a"⟩

def dottedCycle : Diagnostic := ⟨"CYCLE", "/.a/.b/.a/.a\\x.js"⟩

theorem filters_dottedCycle :
    (∃ c ∈ dottedPolicy.namespaceName.toList, Text.isBlank c = false) ∧
    PatternCompiler.refusal? dottedPolicy.namespaceName = none ∧
    ∃ filter, ofPolicy dottedPolicy = .ok filter ∧ filter.suppresses dottedCycle = true ∧
      [⟨"OTHER", "/.a/.a/"⟩, ⟨"CYCLE", "/xa/.a/"⟩, ⟨"OTHER", "/.a/.a/"⟩] =
        filter.forward [⟨"OTHER", "/.a/.a/"⟩, dottedCycle, ⟨"CYCLE", "/xa/.a/"⟩, dottedCycle,
          ⟨"OTHER", "/.a/.a/"⟩] := by
  have hnamespace : ∃ c ∈ dottedPolicy.namespaceName.toList, Text.isBlank c = false :=
    ⟨'.', by decide, by decide⟩
  have hcompiles : PatternCompiler.refusal? dottedPolicy.namespaceName = none := by decide
  obtain ⟨filter, hfilter, hsuppresses, -, -, -⟩ := filters_literally hnamespace hcompiles
  have hcycle : filter.suppresses dottedCycle = true :=
    (hsuppresses dottedCycle).2 ⟨rfl, "/.a/.b", "x.js", '/', '\\', .inl rfl, .inr rfl, by decide⟩
  refine ⟨hnamespace, hcompiles, filter, hfilter, hcycle, ?_⟩
  obtain ⟨-, rfl⟩ := ofPolicy_eq_ok_iff.1 hfilter
  decide +kernel

end DiagnosticFilter
end StagedBuild
