import Mathlib.Data.List.Basic
import StagedBuild.Proofs.Text.Joined

/-!
# Cutting texts at a word

A text is cut at a word where the word stands first, and split by cutting what is left again. Texts
in which the first character of the word does not occur are got back from the joined text.

## Main definitions

* `Text.cut?`: what stands before and behind the first occurrence of a word.
* `Text.splitAtWord`: the parts between the occurrences, looked for from the left.

## Main results

* `Text.cut?_append`: a joined pair is cut into the pair.
* `Text.splitAtWord_joinWith`: a joined list is split into the list.
-/

namespace StagedBuild
namespace Text

/-- What stands before and behind the first occurrence of the word. -/
def cutChars? (word : List Char) : List Char → Option (List Char × List Char)
  | [] => none
  | c :: cs =>
    match word.isPrefixOf? (c :: cs) with
    | some back => some ([], back)
    | none => (cutChars? word cs).map fun parts => (c :: parts.1, parts.2)

/-- What stands in the text before and behind the first occurrence of the word. -/
def cut? (word text : String) : Option (String × String) :=
  (cutChars? word.toList text.toList).map fun parts => (.ofList parts.1, .ofList parts.2)

/-- The parts between the occurrences of the word; an occurrence begins behind the one before. -/
def splitAtWordChars (word cs : List Char) : List (List Char) :=
  match cutChars? word cs with
  | none => [cs]
  | some (front, back) =>
    if back.length < cs.length then front :: splitAtWordChars word back else [cs]
termination_by cs.length

/-- The parts of the text between the occurrences of the word. -/
def splitAtWord (word text : String) : List String :=
  (splitAtWordChars word.toList text.toList).map String.ofList

-- ════════════════════════════════════════════════════════════════════════
-- Characters
-- ════════════════════════════════════════════════════════════════════════

section Characters

variable {c : Char} {cs front : List Char}

/-- A word cannot stand where its first character does not. -/
theorem cutChars?_of_notMem (h : c ∉ front) (word : List Char) :
    cutChars? (c :: word) front = none := by
  induction front with
  | nil => rfl
  | cons d front ih =>
    obtain ⟨hd, hfront⟩ := not_or.1 (mt List.mem_cons.2 h)
    rw [cutChars?, ih hfront]
    simp [List.isPrefixOf?, hd]

theorem cutChars?_append (h : c ∉ front) (word back : List Char) :
    cutChars? (c :: word) (front ++ (c :: word) ++ back) = some (front, back) := by
  induction front with
  | nil =>
    have hprefix : (c :: word).isPrefixOf? (c :: word ++ back) = some back :=
      List.isPrefixOf?_eq_some_iff_append_eq.2 rfl
    rw [List.nil_append, List.cons_append, cutChars?, ← List.cons_append, hprefix]
  | cons d front ih =>
    obtain ⟨hd, hfront⟩ := not_or.1 (mt List.mem_cons.2 h)
    rw [List.cons_append, List.cons_append, cutChars?, ih hfront]
    simp [List.isPrefixOf?, hd]

theorem splitAtWordChars_intercalate {parts : List (List Char)} (hne : parts ≠ [])
    (h : ∀ part ∈ parts, c ∉ part) (word : List Char) :
    splitAtWordChars (c :: word) ((c :: word).intercalate parts) = parts := by
  induction parts with
  | nil => exact absurd rfl hne
  | cons part parts ih =>
    simp only [List.forall_mem_cons] at h
    cases parts with
    | nil => rw [List.intercalate_singleton, splitAtWordChars, cutChars?_of_notMem h.1]
    | cons next parts =>
      rw [List.intercalate_cons_cons, splitAtWordChars, cutChars?_append h.1]
      simp only
      rw [if_pos (by simp; omega), ih (List.cons_ne_nil next parts) h.2]

end Characters

-- ════════════════════════════════════════════════════════════════════════
-- Texts
-- ════════════════════════════════════════════════════════════════════════

section Texts

variable {word : String} {c : Char} {rest : List Char}

theorem cut?_append (hword : word.toList = c :: rest) {front : String} (h : c ∉ front.toList)
    (back : String) : cut? word (front ++ word ++ back) = some (front, back) := by
  rw [cut?, String.toList_append, String.toList_append, hword, cutChars?_append h]
  simp

theorem splitAtWord_joinWith (hword : word.toList = c :: rest) {texts : List String}
    (hne : texts ≠ []) (h : ∀ text ∈ texts, c ∉ text.toList) :
    splitAtWord word (joinWith word texts) = texts := by
  have hmap : texts.map String.toList ≠ [] := by simpa using hne
  have hparts : ∀ part ∈ texts.map String.toList, c ∉ part := by
    intro part hpart
    obtain ⟨text, htext, rfl⟩ := List.mem_map.1 hpart
    exact h text htext
  rw [splitAtWord, toList_joinWith, hword, splitAtWordChars_intercalate hmap hparts, List.map_map]
  simp [Function.comp_def]

end Texts

end Text
end StagedBuild
