import StagedBuild.Proofs.Diagnostic.Suppression
import StagedBuild.Proofs.Text.Joined

/-!
# Import cycles

The message about an import cycle names its modules with arrows between them. The filter searches
the message as one text, so it asks for the namespace in some module and not in each of them.

## Main definitions

* `Diagnostic.cycle`: the warning about the cycle through some modules.
* `Text.SegmentAcross`: the segment begins in one text of a cycle and ends in a later one.

## Main results

* `Text.segmentIn_joinWith_iff`: where a segment stands in the message about a cycle.
* Which cycles a filter keeps back, and for which lists of modules those lie in the namespace as a
  whole. A cycle of one module outside and one inside is kept back.

## Design notes

A namespace may hold an arrow itself. It can then be found over the end of a module, in a cycle of
which no module names it.
-/

namespace StagedBuild

namespace Diagnostic

/-- What stands between two modules of a cycle. -/
def cycleArrow : String := " -> "

/-- The warning about the import cycle through the modules. -/
def cycle (code : String) (paths : List String) : Diagnostic where
  code
  message := Text.joinWith cycleArrow paths

end Diagnostic

namespace Text

open Diagnostic (cycleArrow)

/-- The name with the separators on both its sides begins in one text and ends in a later one. -/
def SegmentAcross (name : String) (texts : List String) : Prop :=
  ∃ c d, isSeparator c = true ∧ isSeparator d = true ∧
    Bridges cycleArrow.toList (c :: (name.toList ++ [d])) (texts.map String.toList)

theorem not_mem_cycleArrow {c : Char} (hc : isSeparator c = true) : c ∉ cycleArrow.toList := by
  intro hmem
  have hchars : cycleArrow.toList = [' ', '-', '>', ' '] := rfl
  rw [hchars] at hmem
  simp only [List.mem_cons, List.not_mem_nil, or_false] at hmem
  rcases hmem with rfl | rfl | rfl | rfl <;> cases hc

theorem clear_segment {c d : Char} (hc : isSeparator c = true) (hd : isSeparator d = true)
    (name : List Char) : Clear cycleArrow.toList (c :: (name ++ [d])) where
  first x hx := by
    obtain rfl : c = x := by simpa using hx
    exact not_mem_cycleArrow hc
  last x hx := by
    rw [← List.cons_append, List.getLast?_concat] at hx
    obtain rfl : d = x := by simpa using hx
    exact not_mem_cycleArrow hd

theorem segmentIn_joinWith_iff {name : String} {texts : List String} (hne : texts ≠ []) :
    SegmentIn name (joinWith cycleArrow texts) ↔
      (∃ text ∈ texts, SegmentIn name text) ∨ SegmentAcross name texts := by
  have hmap : texts.map String.toList ≠ [] := by simpa using hne
  simp only [segmentIn_iff_isInfix, toList_joinWith]
  constructor
  · rintro ⟨c, d, hc, hd, hin⟩
    rw [infix_intercalate_iff (clear_segment hc hd name.toList) hmap] at hin
    obtain ⟨part, hmem, hpart⟩ | hbridges := hin
    · obtain ⟨text, htext, rfl⟩ := List.mem_map.1 hmem
      exact .inl ⟨text, htext, c, d, hc, hd, hpart⟩
    · exact .inr ⟨c, d, hc, hd, hbridges⟩
  · rintro (⟨text, htext, c, d, hc, hd, hin⟩ | ⟨c, d, hc, hd, hbridges⟩)
    · refine ⟨c, d, hc, hd, ?_⟩
      rw [infix_intercalate_iff (clear_segment hc hd name.toList) hmap]
      exact .inl ⟨text.toList, List.mem_map_of_mem htext, hin⟩
    · exact ⟨c, d, hc, hd, hbridges.isInfix⟩

/-- A name that reaches from one text into a later one holds the arrow between them. -/
theorem SegmentAcross.arrow_infix {name : String} {texts : List String}
    (h : SegmentAcross name texts) : cycleArrow.toList <:+: name.toList := by
  obtain ⟨c, d, hc, hd, hbridges⟩ := h
  have hin := hbridges.sep_infix
  -- the arrow holds no separator, so it is behind the first and before the last
  rw [List.infix_cons_iff, List.prefix_cons_iff, List.infix_concat_iff, List.suffix_concat_iff] at hin
  obtain (hnil | ⟨rest, harrow, -⟩) | (hnil | ⟨rest, harrow, -⟩) | hin := hin
  · cases hnil
  · exact absurd (harrow ▸ List.mem_cons_self) (not_mem_cycleArrow hc)
  · cases hnil
  · exact absurd (harrow ▸ List.mem_concat_self) (not_mem_cycleArrow hd)
  · exact hin

/-- When no text holds the arrow, a name that reaches over it is in no text. -/
theorem SegmentAcross.not_segmentIn {name : String} {texts : List String}
    (h : SegmentAcross name texts)
    (harrow : ∀ text ∈ texts, ¬ cycleArrow.toList <:+: text.toList) {text : String}
    (hmem : text ∈ texts) : ¬ SegmentIn name text := by
  rintro ⟨before, after, c, d, -, -, htext⟩
  apply harrow text hmem
  refine h.arrow_infix.trans ⟨before ++ [c], d :: after, ?_⟩
  simp [htext]

end Text

namespace DiagnosticFilter

open Diagnostic (cycleArrow)

/-- A cycle is kept back as soon as one of its modules lies in the namespace. So the cycles that are
kept back lie in it as a whole only for lists of modules that agree on whether they do. -/
theorem suppresses_cycle [PatternCompiler] {policy : DiagnosticPolicy} {filter : DiagnosticFilter}
    (hfilter : ofPolicy policy = .ok filter) {paths : List String} (hne : paths ≠ [])
    (harrow : ∀ path ∈ paths, ¬ cycleArrow.toList <:+: path.toList) :
    (filter.suppresses (.cycle policy.code paths) = true ↔
      (∃ path ∈ paths, Text.SegmentIn policy.namespaceName path) ∨
        Text.SegmentAcross policy.namespaceName paths) ∧
    ((filter.suppresses (.cycle policy.code paths) = true →
        ∀ path ∈ paths, Text.SegmentIn policy.namespaceName path) ↔
      ((∀ path ∈ paths, Text.SegmentIn policy.namespaceName path) ∨
        ∀ path ∈ paths, ¬ Text.SegmentIn policy.namespaceName path) ∧
      ¬ Text.SegmentAcross policy.namespaceName paths) ∧
    (Text.SegmentAcross policy.namespaceName paths →
      cycleArrow.toList <:+: policy.namespaceName.toList) := by
  obtain ⟨-, rfl⟩ := ofPolicy_eq_ok_iff.1 hfilter
  have hsuppresses : (⟨policy⟩ : DiagnosticFilter).suppresses (.cycle policy.code paths) = true ↔
      (∃ path ∈ paths, Text.SegmentIn policy.namespaceName path) ∨
        Text.SegmentAcross policy.namespaceName paths := by
    rw [suppresses_iff]
    simp only [Diagnostic.cycle, true_and]
    exact Text.segmentIn_joinWith_iff hne
  refine ⟨hsuppresses, ?_, Text.SegmentAcross.arrow_infix⟩
  rw [hsuppresses]
  constructor
  · intro hall
    constructor
    · by_cases hsome : ∃ path ∈ paths, Text.SegmentIn policy.namespaceName path
      · exact .inl (hall (.inl hsome))
      · right
        intro path hmem hpath
        exact hsome ⟨path, hmem, hpath⟩
    · intro hacross
      obtain ⟨path, hmem⟩ := List.exists_mem_of_ne_nil paths hne
      exact hacross.not_segmentIn harrow hmem (hall (.inr hacross) path hmem)
  · rintro ⟨hall | hnone, hacross⟩
    · intro _
      exact hall
    · rintro (⟨path, hmem, hpath⟩ | h)
      · exact absurd hpath (hnone path hmem)
      · exact absurd h hacross

-- a namespace that holds an arrow is found although neither module names it
example : (⟨⟨"CYCLE", "x -> y"⟩⟩ : DiagnosticFilter).suppresses (.cycle "CYCLE" ["/x", "y/"]) = true := by
  decide +kernel

-- a cycle through one module of the application and one of the framework

def mixedCycle : List String := ["/src/app/a.js", "/node_modules/@sapper/b.js"]

theorem mixedCycle_arrow : ∀ path ∈ mixedCycle, ¬ cycleArrow.toList <:+: path.toList := by
  decide +kernel

theorem suppresses_mixedCycle :
    ofPolicy .default = .ok ⟨.default⟩ ∧ mixedCycle ≠ [] ∧
    (∀ path ∈ mixedCycle, ¬ cycleArrow.toList <:+: path.toList) ∧
    (⟨.default⟩ : DiagnosticFilter).suppresses (.cycle "CIRCULAR_DEPENDENCY" mixedCycle) = true := by
  have hnode : Text.SegmentIn "@sapper" "/node_modules/@sapper/b.js" := by decide +kernel
  have hfilter : ofPolicy .default = .ok ⟨.default⟩ := by rfl
  have hne : mixedCycle ≠ [] := List.cons_ne_nil _ _
  obtain ⟨hsuppresses, -, -⟩ := suppresses_cycle hfilter hne mixedCycle_arrow
  exact ⟨hfilter, hne, mixedCycle_arrow, hsuppresses.2 (.inl ⟨_, by simp [mixedCycle], hnode⟩)⟩

/-- A cycle that is kept back need not lie in the namespace as a whole. -/
theorem not_forall_suppressed_segmentIn : ¬ ∀ (policy : DiagnosticPolicy) (filter : DiagnosticFilter)
    (paths : List String), ofPolicy policy = .ok filter → paths ≠ [] →
    (∀ path ∈ paths, ¬ cycleArrow.toList <:+: path.toList) →
    filter.suppresses (.cycle policy.code paths) = true →
    ∀ path ∈ paths, Text.SegmentIn policy.namespaceName path := by
  intro h
  have happ : ¬ Text.SegmentIn "@sapper" "/src/app/a.js" := by decide +kernel
  have hsuppressed : (⟨.default⟩ : DiagnosticFilter).suppresses
      (.cycle DiagnosticPolicy.default.code mixedCycle) = true := by decide +kernel
  exact happ (h .default ⟨.default⟩ mixedCycle rfl (List.cons_ne_nil _ _) mixedCycle_arrow
    hsuppressed _ List.mem_cons_self)

end DiagnosticFilter
end StagedBuild
