import StagedBuild.Proofs.Path.Names

/-!
# Paths seen from a root

A path that is seen from an absolute root is absolute and ends as it was written, so it is seen the same
from any other root. A slash at its end is never lost. An empty path stands for the root itself, with a
slash at its end.

## Main results

* `Path.absolutize_eq_join`: joining loses no slash, so none is ever put back.
* `Path.absolutize_of_relative`: the root, a slash and the path.
* `Path.endsInSlash_absolutize`: the paths that end in a slash.
* `Path.absolutized_paths_are_stable`: what a path is from an absolute root, for all roots and paths.
-/

namespace StagedBuild
namespace Path

variable {root path : String}

-- ════════════════════════════════════════════════════════════════════════
-- The end of a joined path
-- ════════════════════════════════════════════════════════════════════════

theorem endsInSlash_append {more : String} (hne : more ≠ "") (path : String) :
    endsInSlash (path ++ more) = endsInSlash more := by
  have hcs : more.toList ≠ [] := by simpa using hne
  rw [endsInSlash, endsInSlash, String.toList_append, List.getLast?_append,
    List.getLast?_eq_some_getLast hcs, Option.some_or]

theorem ne_empty_of_endsInSlash (h : endsInSlash path = true) : path ≠ "" := by
  rintro rfl
  cases h

theorem ne_empty_of_isAbsolute (h : isAbsolute path = true) : path ≠ "" := by
  rintro rfl
  cases h

theorem exists_join_eq_append (base below : String) :
    ∃ front, join base below = front ++ below := by
  rw [join]
  split
  · exact ⟨"", String.empty_append.symm⟩
  split
  · exact ⟨base, rfl⟩
  · exact ⟨base ++ "/", rfl⟩

theorem endsInSlash_join_of_ne_empty {below : String} (hne : below ≠ "") (base : String) :
    endsInSlash (join base below) = endsInSlash below := by
  obtain ⟨front, hjoin⟩ := exists_join_eq_append base below
  rw [hjoin, endsInSlash_append hne]

/-- The slash is written though nothing follows it. -/
theorem endsInSlash_join_empty {base : String} (hne : base ≠ "") :
    endsInSlash (join base "") = true := by
  cases hslash : endsInSlash base with
  | true => rw [join_of_slash rfl (.inr hslash), String.append_empty, hslash]
  | false =>
    rw [join_of_no_slash rfl hne hslash, String.append_empty]
    exact endsInSlash_append (by decide) base

-- ════════════════════════════════════════════════════════════════════════
-- Absolutizing
-- ════════════════════════════════════════════════════════════════════════

/-- Joining loses no slash, so none is put back. -/
theorem absolutize_eq_join (root path : String) : absolutize root path = join root path := by
  rw [absolutize]
  split
  · next habsolute => rw [join, if_pos habsolute]
  · apply if_neg
    intro hlost
    obtain ⟨hslash, hjoined⟩ := Bool.and_eq_true_iff.1 hlost
    rw [endsInSlash_join_of_ne_empty (ne_empty_of_endsInSlash hslash), hslash] at hjoined
    cases hjoined

theorem absolutize_eq_ite (root path : String) :
    absolutize root path = if isAbsolute path then path else join root path := by
  rw [absolutize_eq_join, join]
  split <;> rfl

theorem absolutize_of_isAbsolute (h : isAbsolute path = true) (root : String) :
    absolutize root path = path := by
  rw [absolutize, if_pos h]

theorem absolutize_of_relative (hroot : isAbsolute root = true) (h : isAbsolute path = false) :
    absolutize root path = root ++ ((if endsInSlash root then "" else "/") ++ path) := by
  have hne : root ≠ "" := ne_empty_of_isAbsolute hroot
  rw [absolutize_eq_join]
  cases hslash : endsInSlash root with
  | true => rw [join_of_slash h (.inr hslash), if_pos rfl, String.empty_append]
  | false =>
    rw [join_of_no_slash h hne hslash, if_neg Bool.false_ne_true, String.append_assoc]

theorem isAbsolute_absolutize (hroot : isAbsolute root = true) (path : String) :
    isAbsolute (absolutize root path) = true := by
  cases habsolute : isAbsolute path with
  | true => rw [absolutize_of_isAbsolute habsolute, habsolute]
  | false => rw [absolutize_eq_join, isAbsolute_join habsolute, hroot]

theorem endsInSlash_absolutize (hroot : isAbsolute root = true) :
    endsInSlash (absolutize root path) = true ↔ path = "" ∨ endsInSlash path = true := by
  rw [absolutize_eq_join]
  by_cases hempty : path = ""
  · subst hempty
    exact iff_of_true (endsInSlash_join_empty (ne_empty_of_isAbsolute hroot)) (.inl rfl)
  · rw [endsInSlash_join_of_ne_empty hempty, or_iff_right hempty]

/-- From an absolute root, every path is an absolute one that ends as the path was written. An absolute
path is itself, and any other goes on after the root. It ends in a slash exactly if the path was empty or
ended in one. Seen again, from whatever root, it stays as it is. -/
theorem absolutized_paths_are_stable {root : String} (hroot : isAbsolute root = true) (path : String) :
    isAbsolute (absolutize root path) = true ∧
    (∃ front, absolutize root path = front ++ path) ∧
    (isAbsolute path = true → absolutize root path = path) ∧
    (isAbsolute path = false → ∃ more, absolutize root path = root ++ more) ∧
    (endsInSlash (absolutize root path) = true ↔ path = "" ∨ endsInSlash path = true) ∧
    ∀ other, absolutize other (absolutize root path) = absolutize root path := by
  have habsolute := isAbsolute_absolutize hroot path
  refine ⟨habsolute, ?_, fun h => absolutize_of_isAbsolute h root, ?_,
    endsInSlash_absolutize hroot, fun other => absolutize_of_isAbsolute habsolute other⟩
  · rw [absolutize_eq_join]
    exact exists_join_eq_append root path
  · intro hrelative
    exact ⟨_, absolutize_of_relative hroot hrelative⟩

/-- The topmost directory seen from itself, a directory below it with a slash at its end, and one that
is absolute. -/
theorem absolutize_directories :
    isAbsolute "/" = true ∧ isAbsolute "/app" = true ∧ isAbsolute "./src/" = false ∧
    isAbsolute "//" = true ∧
    isAbsolute (absolutize "/" "") = true ∧ endsInSlash (absolutize "/" "") = true ∧
    (∃ front, absolutize "/app" "./src/" = front ++ "./src/") ∧
    (∃ more, absolutize "/app" "./src/" = "/app" ++ more) ∧
    endsInSlash (absolutize "/app" "./src/") = true ∧
    absolutize "lib" (absolutize "/app" "./src/") = absolutize "/app" "./src/" ∧
    absolutize "/app" "//" = "//" := by
  have htop : isAbsolute "/" = true := by decide
  have hroot : isAbsolute "/app" = true := by decide
  have hrelative : isAbsolute "./src/" = false := by decide
  have hslashes : isAbsolute "//" = true := by decide
  obtain ⟨hempty, -, -, -, hslash, -⟩ := absolutized_paths_are_stable htop ""
  obtain ⟨-, hfront, -, hmore, hend, hagain⟩ := absolutized_paths_are_stable hroot "./src/"
  obtain ⟨-, -, hself, -⟩ := absolutized_paths_are_stable hroot "//"
  exact ⟨htop, hroot, hrelative, hslashes, hempty, hslash.2 (.inl rfl), hfront, hmore hrelative,
    hend.2 (.inr (by decide)), hagain "lib", hself hslashes⟩

end Path
end StagedBuild
