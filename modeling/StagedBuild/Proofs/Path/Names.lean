import StagedBuild.Path
import StagedBuild.Proofs.Text.Lines

/-!
# The names in a joined path

A path below another one has the names of both, one after the other. A text without a slash that is
put at the end of a path belongs to its last part.

## Main results

* `Path.names_join`, `Path.isAbsolute_join`: a relative path below another one.
* `Path.join_eq_ite`: where joining writes a slash.
* `Path.join_inj`: different paths stay different below the same one.
* `Path.parts_append_of_slashless`: what is put at the end belongs to the last part.
-/

namespace StagedBuild
namespace Path

theorem parts_append_slash (above below : String) :
    parts (above ++ "/" ++ below) = parts above ++ parts below := by
  simp [parts, Text.splitAt, Text.splitAtChars_append_sep]

theorem names_append_slash (above below : String) :
    names (above ++ "/" ++ below) = names above ++ names below := by
  rw [names, parts_append_slash, List.filter_append, names, names]

@[simp] theorem names_empty : names "" = [] := by decide

/-- A path that ends in a slash goes on where the slash stands. -/
theorem exists_eq_append_slash {path : String} (h : endsInSlash path = true) :
    ∃ above, path = above ++ "/" := by
  have hlast : path.toList.getLast? = some '/' := by simpa [endsInSlash] using h
  obtain ⟨front, hfront⟩ := List.getLast?_eq_some_iff.1 hlast
  refine ⟨String.ofList front, String.toList_injective ?_⟩
  rw [hfront, String.toList_append, String.toList_ofList]
  rfl

section Join

variable {base below : String}

theorem join_of_slash (hrelative : isAbsolute below = false)
    (h : base = "" ∨ endsInSlash base = true) : join base below = base ++ below := by
  rw [join, if_neg (by simp [hrelative]), if_pos (by simpa using h)]

theorem join_of_no_slash (hrelative : isAbsolute below = false) (hne : base ≠ "")
    (hslash : endsInSlash base = false) : join base below = base ++ "/" ++ below := by
  rw [join, if_neg (by simp [hrelative]), if_neg (by simp [hne, hslash])]

theorem join_eq_ite (hrelative : isAbsolute below = false) :
    join base below =
      (if base = "" ∨ endsInSlash base = true then base else base ++ "/") ++ below := by
  split
  · next h => exact join_of_slash hrelative h
  · next h =>
    obtain ⟨hne, hslash⟩ := not_or.1 h
    exact join_of_no_slash hrelative hne (by simpa using hslash)

theorem names_join (hrelative : isAbsolute below = false) :
    names (join base below) = names base ++ names below := by
  by_cases hempty : base = ""
  · rw [join_of_slash hrelative (.inl hempty), hempty, String.empty_append, names_empty,
      List.nil_append]
  cases hslash : endsInSlash base with
  | true =>
    obtain ⟨above, rfl⟩ := exists_eq_append_slash hslash
    have hbase : names (above ++ "/") = names above := by
      have h := names_append_slash above ""
      rwa [String.append_empty, names_empty, List.append_nil] at h
    rw [join_of_slash hrelative (.inr hslash), names_append_slash, hbase]
  | false => rw [join_of_no_slash hrelative hempty hslash, names_append_slash]

theorem isAbsolute_append {path : String} (hne : path ≠ "") (more : String) :
    isAbsolute (path ++ more) = isAbsolute path := by
  have hcs : path.toList ≠ [] := by simpa using hne
  obtain ⟨c, cs, hpath⟩ := List.exists_cons_of_ne_nil hcs
  rw [isAbsolute, isAbsolute, String.toList_append, hpath, List.cons_append, List.head?_cons,
    List.head?_cons]

theorem isAbsolute_join (hrelative : isAbsolute below = false) :
    isAbsolute (join base below) = isAbsolute base := by
  by_cases hempty : base = ""
  · rw [join_of_slash hrelative (.inl hempty), hempty, String.empty_append, hrelative]
    rfl
  cases hslash : endsInSlash base with
  | true => rw [join_of_slash hrelative (.inr hslash), isAbsolute_append hempty]
  | false =>
    rw [join_of_no_slash hrelative hempty hslash, String.append_assoc, isAbsolute_append hempty]

theorem join_inj {other : String} (hrelative : isAbsolute below = false)
    (hother : isAbsolute other = false) : join base below = join base other ↔ below = other := by
  rw [join_eq_ite hrelative, join_eq_ite hother, String.append_right_inj]

end Join

theorem parts_append_of_slashless {more : String} (h : '/' ∉ more.toList) (path : String) :
    ∃ front last, parts path = front ++ [last] ∧ parts (path ++ more) = front ++ [last ++ more] := by
  obtain ⟨front, last, hpath, hmore⟩ := Text.splitAtChars_append_of_notMem h path.toList
  refine ⟨front.map String.ofList, String.ofList last, ?_, ?_⟩
  · simp [parts, Text.splitAt, hpath]
  · simp [parts, Text.splitAt, hmore]

end Path
end StagedBuild
