import Mathlib.Data.List.Basic
import StagedBuild.Text.Segment

/-!
# Segments as occurrences

Looking for a segment in a message finds exactly the literal occurrences of the name between two
separators.

## Main definitions

* `Text.SegmentIn`: the name stands in the message between two separators.

## Main results

* `Text.hasSegment_iff`: the search finds it.
-/

namespace StagedBuild
namespace Text

/-- The name stands literally in the message, with a separator on either side. -/
def SegmentIn (name message : String) : Prop :=
  ∃ (before after : List Char) (c d : Char), isSeparator c = true ∧ isSeparator d = true ∧
    message.toList = before ++ c :: (name.toList ++ d :: after)

theorem leadsWithSegment_iff {name text : List Char} :
    leadsWithSegment name text = true ↔
      ∃ d after, isSeparator d = true ∧ text = name ++ d :: after := by
  constructor
  · intro h
    rw [leadsWithSegment] at h
    split at h
    · next d after hprefix =>
      have htext := List.isPrefixOf?_eq_some_iff_append_eq.1 hprefix
      exact ⟨d, after, h, htext.symm⟩
    · cases h
  · rintro ⟨d, after, hd, rfl⟩
    have hprefix : name.isPrefixOf? (name ++ d :: after) = some (d :: after) :=
      List.isPrefixOf?_eq_some_iff_append_eq.2 rfl
    rw [leadsWithSegment, hprefix]
    exact hd

theorem hasSegmentChars_iff {name text : List Char} :
    hasSegmentChars name text = true ↔ ∃ before after c d, isSeparator c = true ∧
      isSeparator d = true ∧ text = before ++ c :: (name ++ d :: after) := by
  induction text with
  | nil => simp [hasSegmentChars]
  | cons x text ih =>
    rw [hasSegmentChars, Bool.or_eq_true, Bool.and_eq_true, leadsWithSegment_iff, ih]
    constructor
    · rintro (⟨hx, d, after, hd, rfl⟩ | ⟨before, after, c, d, hc, hd, rfl⟩)
      · exact ⟨[], after, x, d, hx, hd, rfl⟩
      · exact ⟨x :: before, after, c, d, hc, hd, rfl⟩
    · rintro ⟨before, after, c, d, hc, hd, htext⟩
      -- the occurrence begins with the first character or lies behind it
      cases before with
      | nil =>
        obtain ⟨rfl, rfl⟩ := List.cons.inj htext
        exact .inl ⟨hc, d, after, hd, rfl⟩
      | cons y before =>
        obtain ⟨rfl, rfl⟩ := List.cons.inj htext
        exact .inr ⟨before, after, c, d, hc, hd, rfl⟩

theorem hasSegment_iff {name message : String} :
    hasSegment name message = true ↔ SegmentIn name message :=
  hasSegmentChars_iff

instance (name message : String) : Decidable (SegmentIn name message) :=
  decidable_of_iff _ hasSegment_iff

/-- The name with the separators on both its sides is a piece of the message. -/
theorem segmentIn_iff_isInfix {name message : String} :
    SegmentIn name message ↔ ∃ c d, isSeparator c = true ∧ isSeparator d = true ∧
      c :: (name.toList ++ [d]) <:+: message.toList := by
  constructor
  · rintro ⟨before, after, c, d, hc, hd, hmessage⟩
    exact ⟨c, d, hc, hd, before, after, by simp [hmessage]⟩
  · rintro ⟨c, d, hc, hd, before, after, hmessage⟩
    exact ⟨before, after, c, d, hc, hd, by simp [← hmessage]⟩

end Text
end StagedBuild
