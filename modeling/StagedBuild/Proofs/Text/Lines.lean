import StagedBuild.Proofs.Text.Joined

/-!
# Lines that are read back

Texts that are written one to a line are the lines of the stream, as long as none of them holds a
line feed or ends in a carriage return.

## Main definitions

* `Text.Unbroken`: a text without a line feed.
* `Text.FitsLine`: a text that stays whole as a line of a stream.

## Main results

* `Text.splitAtChars_append_sep`, `Text.splitAtChars_append_of_notMem`: the parts of two texts.
* `Text.splitAt_unlines`: the parts of a text that was written line by line.
* `Text.lines_unlines`: the lines of a stream that was written line by line.
-/

namespace StagedBuild
namespace Text

/-- The text holds no line feed. -/
def Unbroken (text : String) : Prop :=
  '\n' ∉ text.toList

instance (text : String) : Decidable (Unbroken text) :=
  inferInstanceAs (Decidable (¬ _))

@[simp] theorem unbroken_append {a b : String} : Unbroken (a ++ b) ↔ Unbroken a ∧ Unbroken b := by
  rw [Unbroken, String.toList_append, List.mem_append, not_or]
  rfl

theorem unbroken_joinWith {sep : String} (hsep : Unbroken sep) {texts : List String}
    (h : ∀ text ∈ texts, Unbroken text) : Unbroken (joinWith sep texts) := by
  intro hmem
  obtain hmem | ⟨text, htext, hmem⟩ := mem_joinWith hmem
  · exact hsep hmem
  · exact h text htext hmem

/-- The text can stand on a line without being cut or shortened. -/
structure FitsLine (text : String) : Prop where
  unbroken : '\n' ∉ text.toList
  keepsEnd : text.toList.getLast? ≠ some '\r'

theorem splitAtChars_ne_nil (sep : Char) (cs : List Char) : splitAtChars sep cs ≠ [] := by
  cases cs with
  | nil => simp [splitAtChars]
  | cons c cs =>
    rw [splitAtChars]
    split
    · simp
    · split <;> simp

/-- A separator cuts a text in two, whatever the two parts are. -/
theorem splitAtChars_append_sep (sep : Char) (xs ys : List Char) :
    splitAtChars sep (xs ++ sep :: ys) = splitAtChars sep xs ++ splitAtChars sep ys := by
  induction xs with
  | nil => simp [splitAtChars]
  | cons c xs ih =>
    simp only [List.cons_append, splitAtChars, ih]
    by_cases hc : c = sep
    · simp [hc]
    · cases hxs : splitAtChars sep xs with
      | nil => exact absurd hxs (splitAtChars_ne_nil sep xs)
      | cons part parts => simp [hc]

theorem splitAtChars_of_notMem {sep : Char} {cs : List Char} (h : sep ∉ cs) :
    splitAtChars sep cs = [cs] := by
  induction cs with
  | nil => rfl
  | cons c cs ih =>
    obtain ⟨hc, hcs⟩ := not_or.1 (mt List.mem_cons.2 h)
    have hne : c ≠ sep := fun heq => hc heq.symm
    rw [splitAtChars, if_neg hne, ih hcs]

/-- What follows without a separator belongs to the last part. -/
theorem splitAtChars_append_of_notMem {sep : Char} {ys : List Char} (h : sep ∉ ys)
    (xs : List Char) :
    ∃ front last, splitAtChars sep xs = front ++ [last] ∧
      splitAtChars sep (xs ++ ys) = front ++ [last ++ ys] := by
  induction xs with
  | nil => exact ⟨[], [], rfl, splitAtChars_of_notMem h⟩
  | cons c xs ih =>
    obtain ⟨front, last, hxs, hys⟩ := ih
    simp only [List.cons_append, splitAtChars, hxs, hys]
    by_cases hc : c = sep
    · exact ⟨[] :: front, last, by simp [hc], by simp [hc]⟩
    · cases front with
      | nil => exact ⟨[], c :: last, by simp [hc], by simp [hc]⟩
      | cons part front => exact ⟨(c :: part) :: front, last, by simp [hc], by simp [hc]⟩

theorem splitAtChars_flatMap {sep : Char} {parts : List (List Char)}
    (h : ∀ part ∈ parts, sep ∉ part) :
    splitAtChars sep (parts.flatMap (· ++ [sep])) = parts ++ [[]] := by
  induction parts with
  | nil => rfl
  | cons part parts ih =>
    simp only [List.forall_mem_cons] at h
    rw [List.flatMap_cons, List.append_assoc, List.singleton_append, splitAtChars_append_sep,
      splitAtChars_of_notMem h.1, ih h.2, List.cons_append, List.nil_append, List.cons_append]

/-- When nothing follows the last line feed, each part is a line. -/
theorem closeLines_concat_nil (parts : List (List Char)) :
    closeLines (parts ++ [[]]) = parts.map dropReturn := by
  induction parts with
  | nil => rfl
  | cons part parts ih =>
    have hne : parts ++ [[]] ≠ [] := by simp
    rw [List.cons_append, closeLines, ih, List.map_cons]
    exact hne

theorem toList_unlines (texts : List String) :
    (unlines texts).toList = (texts.map String.toList).flatMap (· ++ ['\n']) := by
  rw [unlines, String.toList_join, List.flatMap_map, List.flatMap_map]
  simp

/-- Texts without a line feed that are written one to a line are the parts between the line feeds,
and nothing stands behind the last one. -/
theorem splitAt_unlines {texts : List String} (h : ∀ text ∈ texts, Unbroken text) :
    splitAt '\n' (unlines texts) = texts ++ [""] := by
  have hparts : ∀ part ∈ texts.map String.toList, '\n' ∉ part := by
    intro part hpart
    obtain ⟨text, htext, rfl⟩ := List.mem_map.1 hpart
    exact h text htext
  rw [splitAt, toList_unlines, splitAtChars_flatMap hparts, List.map_append, List.map_map]
  simp [Function.comp_def]

theorem dropReturn_eq_self {line : List Char} (h : line.getLast? ≠ some '\r') :
    dropReturn line = line := by
  rw [dropReturn, if_neg h]

theorem lines_unlines {texts : List String} (h : ∀ text ∈ texts, FitsLine text) :
    lines (unlines texts) = texts := by
  have hunbroken : ∀ part ∈ texts.map String.toList, '\n' ∉ part := by
    intro part hpart
    obtain ⟨text, htext, rfl⟩ := List.mem_map.1 hpart
    exact (h text htext).unbroken
  have hlines : (texts.map String.toList).map dropReturn = texts.map String.toList := by
    rw [List.map_map]
    apply List.map_congr_left
    intro text htext
    exact dropReturn_eq_self (h text htext).keepsEnd
  rw [lines, toList_unlines, splitAtChars_flatMap hunbroken, closeLines_concat_nil, hlines,
    List.map_map]
  simp [Function.comp_def]

end Text
end StagedBuild
