import Mathlib.Data.List.DropRight
import StagedBuild.Path

/-!
# Slashes at the end of a path

A path is some text that does not end in a slash, and slashes behind it. Trimming leaves the text. What
is put behind a path is trimmed together with the path only if it holds nothing but slashes.

## Main definitions

* `Path.OnlySlashes`: a text of slashes, the empty text included.
* `Path.Inside`: a path that goes on after a directory's path with a slash.

## Main results

* `Path.exists_trimSlashes_append`, `Path.endsInSlash_trimSlashes`: what trimming takes away and
  leaves.
* `Path.trimSlashes_append_of_onlySlashes`, `Path.trimSlashes_append_of_not_onlySlashes`: trimming a
  path behind which something was put.
* `Path.inside_append_iff`: what can be put behind a directory's path to get inside.
-/

namespace StagedBuild
namespace Path

def OnlySlashes (text : String) : Prop :=
  ∀ c ∈ text.toList, c = '/'

instance (text : String) : Decidable (OnlySlashes text) :=
  List.decidableBAll (· = '/') text.toList

/-- The path begins with the directory's and a slash. -/
def Inside (directory path : String) : Prop :=
  ∃ more, path = directory ++ "/" ++ more

-- ════════════════════════════════════════════════════════════════════════
-- Characters
-- ════════════════════════════════════════════════════════════════════════

section Chars

variable {cs rest : List Char}

theorem trimSlashesChars_eq_rdropWhile (cs : List Char) :
    trimSlashesChars cs = cs.rdropWhile (· == '/') := rfl

theorem exists_trimSlashesChars_append (cs : List Char) :
    ∃ slashes : List Char, (∀ c ∈ slashes, c = '/') ∧ cs = trimSlashesChars cs ++ slashes := by
  refine ⟨cs.rtakeWhile (· == '/'), ?_, List.rdropWhile_append_rtakeWhile.symm⟩
  intro c hc
  simpa using List.mem_rtakeWhile_imp hc

theorem getLast?_trimSlashesChars (cs : List Char) : (trimSlashesChars cs).getLast? ≠ some '/' := by
  intro hlast
  have hne : trimSlashesChars cs ≠ [] := by
    intro hnil
    rw [hnil] at hlast
    cases hlast
  have hnot := List.rdropWhile_last_not (· == '/') cs hne
  rw [List.getLast?_eq_some_getLast hne, Option.some.injEq] at hlast
  exact hnot (beq_iff_eq.2 hlast)

theorem trimSlashesChars_of_getLast? (h : cs.getLast? ≠ some '/') : trimSlashesChars cs = cs := by
  rw [trimSlashesChars_eq_rdropWhile, List.rdropWhile_eq_self_iff]
  intro hne hslash
  rw [List.getLast?_eq_some_getLast hne] at h
  exact h (congrArg some (beq_iff_eq.1 hslash))

theorem trimSlashesChars_append_of_slashes (h : ∀ c ∈ rest, c = '/') :
    trimSlashesChars (cs ++ rest) = trimSlashesChars cs := by
  have hrest : ∀ c ∈ rest.reverse, (c == '/') = true := by
    intro c hc
    exact beq_iff_eq.2 (h c (List.mem_reverse.1 hc))
  rw [trimSlashesChars, List.reverse_append, List.dropWhile_append_of_pos hrest, trimSlashesChars]

theorem trimSlashesChars_append_of_not_slashes (h : ¬ ∀ c ∈ rest, c = '/') :
    trimSlashesChars (cs ++ rest) = cs ++ trimSlashesChars rest := by
  have hne : rest.reverse.dropWhile (· == '/') ≠ [] := by
    intro hnil
    apply h
    intro c hc
    simpa using List.dropWhile_eq_nil_iff.1 hnil c (List.mem_reverse.2 hc)
  rw [trimSlashesChars, List.reverse_append, List.dropWhile_append, if_neg (by simpa using hne),
    List.reverse_append, List.reverse_reverse, trimSlashesChars]

end Chars

-- ════════════════════════════════════════════════════════════════════════
-- Texts
-- ════════════════════════════════════════════════════════════════════════

variable {path rest : String}

@[simp] theorem toList_trimSlashes (path : String) :
    (trimSlashes path).toList = trimSlashesChars path.toList :=
  String.toList_ofList

theorem exists_trimSlashes_append (path : String) :
    ∃ slashes, OnlySlashes slashes ∧ path = trimSlashes path ++ slashes := by
  obtain ⟨slashes, hslashes, hpath⟩ := exists_trimSlashesChars_append path.toList
  refine ⟨String.ofList slashes, by simpa [OnlySlashes] using hslashes, String.toList_injective ?_⟩
  simpa using hpath

@[simp] theorem endsInSlash_trimSlashes (path : String) : endsInSlash (trimSlashes path) = false := by
  have hlast := getLast?_trimSlashesChars path.toList
  rw [endsInSlash, toList_trimSlashes]
  simpa using hlast

/-- Slashes that are put behind a path are trimmed with it. -/
theorem trimSlashes_append_of_onlySlashes (h : OnlySlashes rest) (path : String) :
    trimSlashes (path ++ rest) = trimSlashes path := by
  rw [trimSlashes, String.toList_append, trimSlashesChars_append_of_slashes h, trimSlashes]

/-- Only what was put behind a path is trimmed when it holds more than slashes. -/
theorem trimSlashes_append_of_not_onlySlashes (h : ¬ OnlySlashes rest) (path : String) :
    trimSlashes (path ++ rest) = path ++ trimSlashes rest := by
  apply String.toList_injective
  rw [toList_trimSlashes, String.toList_append, trimSlashesChars_append_of_not_slashes h,
    String.toList_append, toList_trimSlashes]

/-- A slash that is followed by more than slashes stays where it is. -/
theorem trimSlashes_append_slash {more : String} (h : ¬ OnlySlashes ("/" ++ more)) (path : String) :
    trimSlashes (path ++ ("/" ++ more)) = path ++ "/" ++ trimSlashes more := by
  have hmore : ¬ OnlySlashes more := by
    intro hslashes
    apply h
    simpa [OnlySlashes] using hslashes
  rw [← String.append_assoc, trimSlashes_append_of_not_onlySlashes hmore]

theorem trimSlashes_of_endsInSlash_eq_false (h : endsInSlash path = false) :
    trimSlashes path = path := by
  have hlast : path.toList.getLast? ≠ some '/' := by simpa [endsInSlash] using h
  rw [trimSlashes, trimSlashesChars_of_getLast? hlast, String.ofList_toList]

@[simp] theorem trimSlashes_trimSlashes (path : String) :
    trimSlashes (trimSlashes path) = trimSlashes path :=
  trimSlashes_of_endsInSlash_eq_false (endsInSlash_trimSlashes path)

-- ════════════════════════════════════════════════════════════════════════
-- Paths inside a directory
-- ════════════════════════════════════════════════════════════════════════

variable {directory : String}

theorem inside_iff_isPrefix :
    Inside directory path ↔ (directory ++ "/").toList <+: path.toList := by
  constructor
  · rintro ⟨more, rfl⟩
    exact ⟨more.toList, by simp⟩
  · rintro ⟨more, hmore⟩
    refine ⟨String.ofList more, String.toList_injective ?_⟩
    rw [String.toList_append, String.toList_ofList, hmore]

instance (directory path : String) : Decidable (Inside directory path) :=
  decidable_of_iff _ inside_iff_isPrefix.symm

theorem Inside.append (h : Inside directory path) (more : String) :
    Inside directory (path ++ more) := by
  obtain ⟨below, rfl⟩ := h
  exact ⟨below ++ more, by rw [String.append_assoc]⟩

/-- What is put behind a directory's path leads inside only if it begins with a slash. -/
theorem inside_append_iff {more : String} :
    Inside directory (directory ++ more) ↔ isAbsolute more = true := by
  simp only [Inside, String.append_assoc, String.append_right_inj]
  constructor
  · rintro ⟨below, rfl⟩
    simp [isAbsolute]
  · intro h
    have hhead : more.toList.head? = some '/' := by simpa [isAbsolute] using h
    obtain ⟨below, hbelow⟩ := List.head?_eq_some_iff.1 hhead
    refine ⟨String.ofList below, String.toList_injective ?_⟩
    simpa using hbelow

theorem not_inside_self : ¬ Inside directory directory := by
  rintro ⟨below, hbelow⟩
  have hlength := congrArg String.length hbelow
  rw [String.length_append, String.length_append] at hlength
  have hslash : "/".length = 1 := rfl
  omega

end Path
end StagedBuild
