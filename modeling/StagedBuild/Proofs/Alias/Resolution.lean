import StagedBuild.Alias.Resolution
import StagedBuild.Proofs.Text.SegmentPrefix
import StagedBuild.Proofs.Traversal

/-!
# Where a specifier is found

The first alias that leads a specifier gives a list of candidates that does not depend on any file. A
resolution goes through this list from the left and ends at the first candidate that is a file. So with
more files nothing is found later than before.

## Main definitions

* `Resolution.FirstHit`: the first of some paths that is a file.
* `AliasTable.Matches`: the entry that decides for a specifier, and what follows its name.

## Main results

* `Resolution.firstFile_of_firstHit`, `Resolution.firstFile_of_no_hit`: the two ways a search can end.
* `Resolution.FirstHit.mono`: with more files the first hit is not later.
* `AliasTable.matching?_eq_some_iff`, `AliasTable.matching?_eq_none_iff`: the entry that is found.
* `AliasTable.resolve_first_match`: resolving a specifier, for all tables and all files.
-/

namespace StagedBuild

-- ════════════════════════════════════════════════════════════════════════
-- Searching a list of paths
-- ════════════════════════════════════════════════════════════════════════

namespace Resolution

/-- Of the listed paths, the first that is a file, with the paths before it. -/
structure FirstHit (isFile : String → Bool) (paths before : List String) (path : String) : Prop where
  split : ∃ after, paths = before ++ path :: after
  missed : ∀ earlier ∈ before, isFile earlier = false
  hit : isFile path = true

variable {isFile more : String → Bool} {paths before : List String} {path : String}

theorem firstFile_of_no_hit (h : ∀ path ∈ paths, isFile path = false) :
    firstFile isFile paths = ⟨none, paths⟩ := by
  induction paths with
  | nil => rfl
  | cons head rest ih =>
    simp only [List.forall_mem_cons] at h
    rw [firstFile, h.1, if_neg Bool.false_ne_true, ih h.2]

/-- A search asks about the paths up to the first hit and returns it. -/
theorem firstFile_of_firstHit (h : FirstHit isFile paths before path) :
    firstFile isFile paths = ⟨some path, before ++ [path]⟩ := by
  obtain ⟨⟨after, rfl⟩, hmissed, hhit⟩ := h
  induction before with
  | nil => rw [List.nil_append, firstFile, if_pos hhit, List.nil_append]
  | cons head rest ih =>
    simp only [List.forall_mem_cons] at hmissed
    rw [List.cons_append, firstFile, hmissed.1, if_neg Bool.false_ne_true, ih hmissed.2,
      List.cons_append]

theorem exists_firstHit (h : ∃ path ∈ paths, isFile path = true) :
    ∃ before path, FirstHit isFile paths before path := by
  obtain ⟨before, path, after, hsplit, hbefore, hpath⟩ := Traversal.exists_first h
  exact ⟨before, path, ⟨after, hsplit⟩, fun other hmem => by simpa using hbefore other hmem, hpath⟩

theorem firstHit_or_no_hit (isFile : String → Bool) (paths : List String) :
    (∃ before path, FirstHit isFile paths before path) ∨ ∀ path ∈ paths, isFile path = false := by
  by_cases h : ∃ path ∈ paths, isFile path = true
  · exact .inl (exists_firstHit h)
  · exact .inr (by simpa using h)

/-- With more files the first hit is the same path or one before it. -/
theorem FirstHit.mono (h : FirstHit isFile paths before path)
    (hmore : ∀ path ∈ paths, isFile path = true → more path = true) :
    ∃ front found, FirstHit more paths front found ∧ front ++ [found] <+: before ++ [path] := by
  obtain ⟨⟨after, rfl⟩, -, hhit⟩ := h
  have hpath : ∃ other ∈ before ++ [path], more other = true :=
    ⟨path, by simp, hmore path (by simp) hhit⟩
  obtain ⟨front, found, ⟨back, hsplit⟩, hmissed, hfound⟩ := exists_firstHit hpath
  refine ⟨front, found, ⟨⟨back ++ after, ?_⟩, hmissed, hfound⟩, ⟨back, ?_⟩⟩
  · rw [List.append_cons, hsplit, List.append_assoc, List.cons_append]
  · rw [hsplit, List.append_assoc, List.singleton_append]

/-- What is asked about are paths of the list from its first on. -/
theorem asked_firstFile (isFile : String → Bool) (paths : List String) :
    (firstFile isFile paths).asked <+: paths ∧
      (firstFile isFile paths).asked.head? = paths.head? := by
  obtain ⟨before, path, hhit⟩ | hnone := firstHit_or_no_hit isFile paths
  · rw [firstFile_of_firstHit hhit]
    obtain ⟨after, rfl⟩ := hhit.split
    refine ⟨⟨after, by simp⟩, ?_⟩
    cases before with
    | nil => rfl
    | cons head rest => rfl
  · rw [firstFile_of_no_hit hnone]
    exact ⟨List.prefix_rfl, rfl⟩

theorem mem_asked_firstFile (h : (firstFile isFile paths).path = some path) :
    path ∈ (firstFile isFile paths).asked := by
  obtain ⟨before, found, hhit⟩ | hnone := firstHit_or_no_hit isFile paths
  · rw [firstFile_of_firstHit hhit] at h ⊢
    obtain rfl := Option.some.inj h
    exact List.mem_concat_self
  · rw [firstFile_of_no_hit hnone] at h
    cases h

/-- Only what is known about the listed paths counts. -/
theorem firstFile_congr {other : String → Bool} (h : ∀ path ∈ paths, isFile path = other path) :
    firstFile isFile paths = firstFile other paths := by
  induction paths with
  | nil => rfl
  | cons head rest ih =>
    simp only [List.forall_mem_cons] at h
    rw [firstFile, firstFile, h.1, ih h.2]

end Resolution

-- ════════════════════════════════════════════════════════════════════════
-- The entry that decides
-- ════════════════════════════════════════════════════════════════════════

namespace AliasTable

/-- Of the entries whose name leads the specifier, the first, with what follows its name. -/
structure Matches (table : AliasTable) (specifier : String) (entry : AliasEntry) (rest : String) :
    Prop where
  first : ∃ before after, table.entries = before ++ entry :: after ∧
    ∀ earlier ∈ before, ¬ Text.Leads earlier.name specifier
  specifier : specifier = entry.name ++ rest
  opens : rest = "" ∨ ∃ more, rest = "/" ++ more

variable {table : AliasTable} {specifier rest : String} {entry : AliasEntry}

theorem Matches.mem (h : table.Matches specifier entry rest) : entry ∈ table.entries := by
  obtain ⟨before, after, hsplit, -⟩ := h.first
  rw [hsplit]
  exact List.mem_append_right before List.mem_cons_self

theorem matching?_eq_some_iff :
    table.matching? specifier = some (entry, rest) ↔ table.Matches specifier entry rest := by
  have hrest : ∀ other : AliasEntry, (Text.segmentRest? other.name specifier).map (other, ·) =
      some (entry, rest) ↔ other = entry ∧ specifier = other.name ++ rest ∧
        (rest = "" ∨ ∃ more, rest = "/" ++ more) := by
    intro other
    simp only [Option.map_eq_some_iff, Prod.mk.injEq, Text.segmentRest?_eq_some_iff,
      ← String.toList_append, String.toList_inj, Text.opensSegment_toList_iff]
    constructor
    · rintro ⟨_, ⟨hspecifier, hopens⟩, rfl, rfl⟩
      exact ⟨rfl, hspecifier, hopens⟩
    · rintro ⟨rfl, hspecifier, hopens⟩
      exact ⟨rest, ⟨hspecifier, hopens⟩, rfl, rfl⟩
  simp only [matching?, List.findSome?_eq_some_iff, hrest, Option.map_eq_none_iff,
    Text.segmentRest?_eq_none_iff]
  constructor
  · rintro ⟨before, _, after, hsplit, ⟨rfl, hspecifier, hopens⟩, hbefore⟩
    exact ⟨⟨before, after, hsplit, hbefore⟩, hspecifier, hopens⟩
  · rintro ⟨⟨before, after, hsplit, hbefore⟩, hspecifier, hopens⟩
    exact ⟨before, entry, after, hsplit, ⟨rfl, hspecifier, hopens⟩, hbefore⟩

theorem matching?_eq_none_iff :
    table.matching? specifier = none ↔ ∀ entry ∈ table.entries, ¬ Text.Leads entry.name specifier := by
  simp only [matching?, List.findSome?_eq_none_iff, Option.map_eq_none_iff,
    Text.segmentRest?_eq_none_iff]

theorem exists_matches (h : ∃ entry ∈ table.entries, Text.Leads entry.name specifier) :
    ∃ entry rest, table.Matches specifier entry rest := by
  cases hmatching : table.matching? specifier with
  | none =>
    obtain ⟨entry, hmem, hleads⟩ := h
    exact absurd hleads (matching?_eq_none_iff.1 hmatching entry hmem)
  | some found => exact ⟨found.1, found.2, matching?_eq_some_iff.1 hmatching⟩

-- ════════════════════════════════════════════════════════════════════════
-- The candidates
-- ════════════════════════════════════════════════════════════════════════

theorem candidates_eq_nil (h : ∀ entry ∈ table.entries, ¬ Text.Leads entry.name specifier) :
    table.candidates specifier = [] := by
  rw [candidates, matching?_eq_none_iff.2 h]

theorem candidates_of_matches (h : table.Matches specifier entry rest) :
    table.candidates specifier = candidatesOf table.extensions entry rest := by
  rw [candidates, matching?_eq_some_iff.2 h]

/-- The specifier is longer than the name when something follows the name. -/
theorem Matches.length_lt_iff (h : table.Matches specifier entry rest) :
    entry.name.length < specifier.length ↔ rest ≠ "" := by
  rw [h.specifier, String.length_append, Ne, ← String.length_eq_zero_iff]
  omega

/-- The candidates of a specifier that goes on after the name. -/
theorem candidatesOf_of_ne (hrest : rest ≠ "") (extensions : List String) (entry : AliasEntry) :
    let base := Path.trimSlashes (Path.trimSlashes entry.path ++ rest)
    candidatesOf extensions entry rest =
      base :: extensions.map (base ++ ·) ++ extensions.map (base ++ "/index" ++ ·) := by
  intro base
  rw [candidatesOf, if_neg hrest]

/-- The name alone stands for the index file. -/
theorem candidatesOf_empty (extensions : List String) (entry : AliasEntry) :
    candidatesOf extensions entry "" =
      extensions.map (Path.trimSlashes (Path.trimSlashes entry.path ++ "") ++ "/index" ++ ·) := by
  rw [candidatesOf, if_pos rfl, List.nil_append]

-- ════════════════════════════════════════════════════════════════════════
-- Resolving
-- ════════════════════════════════════════════════════════════════════════

/-- A specifier that no alias leads has no candidates, and nothing is asked about. Any other has the
candidates of the first alias that leads it: the substituted path without slashes at its end, as it
stands and with each extension, if the specifier is longer than the name, and in any case the index file
with each extension. Resolving asks about the candidates up to and including the first that is a file,
and returns that one, or asks about all of them when none is a file. With more files, a specifier that
was resolved is resolved again, without asking about any further path, and files that are no candidates
do not matter at all. -/
theorem resolve_first_match (table : AliasTable) (specifier : String) :
    let candidates := table.candidates specifier
    ((∀ entry ∈ table.entries, ¬ Text.Leads entry.name specifier) →
      candidates = [] ∧ ∀ isFile, table.resolve isFile specifier = ⟨none, []⟩) ∧
    ((∃ entry ∈ table.entries, Text.Leads entry.name specifier) →
      ∃ entry rest, table.Matches specifier entry rest ∧
        let base := Path.trimSlashes (Path.trimSlashes entry.path ++ rest)
        let direct := base :: table.extensions.map (base ++ ·)
        let indices := table.extensions.map (base ++ "/index" ++ ·)
        (entry.name.length < specifier.length →
          candidates = direct ++ indices ∧ candidates.length = 1 + 2 * table.extensions.length) ∧
        (¬ entry.name.length < specifier.length →
          candidates = indices ∧ candidates.length = table.extensions.length)) ∧
    (∀ isFile,
      (∃ before path, Resolution.FirstHit isFile candidates before path ∧
        table.resolve isFile specifier = ⟨some path, before ++ [path]⟩) ∨
      ((∀ path ∈ candidates, isFile path = false) ∧
        table.resolve isFile specifier = ⟨none, candidates⟩)) ∧
    (∀ isFile more : String → Bool, (∀ path, isFile path = true → more path = true) →
      ∀ path, (table.resolve isFile specifier).path = some path →
        ∃ found, (table.resolve more specifier).path = some found ∧
          (table.resolve more specifier).asked <+: (table.resolve isFile specifier).asked) ∧
    ∀ isFile other, (∀ path ∈ candidates, isFile path = other path) →
      table.resolve isFile specifier = table.resolve other specifier := by
  intro candidates
  refine ⟨?_, ?_, ?_, ?_, fun isFile other h => Resolution.firstFile_congr h⟩
  · intro hnone
    have hnil : candidates = [] := candidates_eq_nil hnone
    refine ⟨hnil, fun isFile => ?_⟩
    show Resolution.firstFile isFile candidates = _
    rw [hnil, Resolution.firstFile]
  · intro hleads
    obtain ⟨entry, rest, hmatches⟩ := exists_matches hleads
    have hcandidates : candidates = candidatesOf table.extensions entry rest :=
      candidates_of_matches hmatches
    refine ⟨entry, rest, hmatches, ?_⟩
    intro base direct indices
    rw [hmatches.length_lt_iff]
    constructor
    · intro hrest
      rw [hcandidates, candidatesOf_of_ne hrest]
      refine ⟨rfl, ?_⟩
      simp only [List.length_append, List.length_cons, List.length_map]
      omega
    · intro hrest
      obtain rfl : rest = "" := not_not.1 hrest
      rw [hcandidates, candidatesOf_empty]
      exact ⟨rfl, List.length_map _⟩
  · intro isFile
    obtain ⟨before, path, hhit⟩ | hnone := Resolution.firstHit_or_no_hit isFile candidates
    · exact .inl ⟨before, path, hhit, Resolution.firstFile_of_firstHit hhit⟩
    · exact .inr ⟨hnone, Resolution.firstFile_of_no_hit hnone⟩
  · intro isFile more hmore path hpath
    rw [resolve] at hpath ⊢
    obtain ⟨before, path, hhit⟩ | hnone := Resolution.firstHit_or_no_hit isFile candidates
    · obtain ⟨front, found, hfound, hprefix⟩ := hhit.mono fun path _ => hmore path
      rw [resolve, Resolution.firstFile_of_firstHit hhit, Resolution.firstFile_of_firstHit hfound]
      exact ⟨found, rfl, hprefix⟩
    · rw [Resolution.firstFile_of_no_hit hnone] at hpath
      cases hpath

-- a directory of components, with one extension listed twice

def componentTable : AliasTable :=
  ⟨[⟨"components", "/src/components/"⟩], [".js", ".css", ".js"]⟩

def isTheme (path : String) : Bool :=
  path == "/src/components/theme.css"

def isThemeOrScript (path : String) : Bool :=
  isTheme path || path == "/src/components/theme.js"

/-- The style sheet is found at the third candidate, and with a script before it nothing later is. -/
theorem resolve_componentTable :
    componentTable.candidates "components-extra/theme" = [] ∧
    (componentTable.candidates "components").length = 3 ∧
    (componentTable.candidates "components/theme").length = 7 ∧
    (componentTable.resolve isTheme "components/theme").path = some "/src/components/theme.css" ∧
    (∃ found, (componentTable.resolve isThemeOrScript "components/theme").path = some found ∧
      (componentTable.resolve isThemeOrScript "components/theme").asked <+:
        (componentTable.resolve isTheme "components/theme").asked) ∧
    componentTable.resolve isThemeOrScript "components" =
      componentTable.resolve (fun _ => false) "components" := by
  obtain ⟨hunled, -, -, -, -⟩ := resolve_first_match componentTable "components-extra/theme"
  obtain ⟨-, hbare, -, -, hagree⟩ := resolve_first_match componentTable "components"
  obtain ⟨-, hlonger, -, hmono, -⟩ := resolve_first_match componentTable "components/theme"
  have hentry : ∀ {specifier entry rest}, componentTable.Matches specifier entry rest →
      entry = ⟨"components", "/src/components/"⟩ := by
    intro specifier entry rest hmatches
    simpa [componentTable] using hmatches.mem
  have htheme : (componentTable.resolve isTheme "components/theme").path =
      some "/src/components/theme.css" := by decide +kernel
  refine ⟨(hunled (by decide +kernel)).1, ?_, ?_, htheme, ?_, hagree _ _ (by decide +kernel)⟩
  · obtain ⟨entry, rest, hmatches, -, hlength⟩ := hbare (by decide +kernel)
    obtain rfl := hentry hmatches
    exact (hlength (by decide)).2
  · obtain ⟨entry, rest, hmatches, hlength, -⟩ := hlonger (by decide +kernel)
    obtain rfl := hentry hmatches
    exact (hlength (by decide)).2
  · exact hmono isTheme isThemeOrScript (fun path h => Bool.or_eq_true_iff.2 (.inl h)) _ htheme

end AliasTable
end StagedBuild
