import Mathlib.Data.List.Basic
import StagedBuild.Text.Segment

/-!
# Leading segments

A name leads a specifier that it equals or that goes on after it with a slash. This is an order on
texts, and of two names that lead one specifier, one leads the other.

## Main definitions

* `Text.Leads`: the name is the specifier or some of its first segments.

## Main results

* `Text.segmentRest?_eq_some_iff`, `Text.isSegmentPrefix_iff`: what is found after a name.
* `Text.Leads.refl`, `Text.Leads.antisymm`, `Text.Leads.trans`: the order.
* `Text.Leads.comparable`: names that lead one specifier are comparable.
-/

namespace StagedBuild
namespace Text

/-- The specifier is the name, or the name followed by a slash and anything. -/
def Leads (name text : String) : Prop :=
  text = name ∨ ∃ more, text = name ++ "/" ++ more

/-- Nothing follows, or a slash does. -/
def OpensSegment (rest : List Char) : Prop :=
  rest = [] ∨ ∃ more, rest = '/' :: more

theorem OpensSegment.of_append {front rest : List Char} (h : OpensSegment (front ++ rest)) :
    OpensSegment front := by
  cases front with
  | nil => exact .inl rfl
  | cons c front =>
    obtain hnil | ⟨more, hmore⟩ := h
    · cases hnil
    · obtain ⟨rfl, -⟩ := List.cons.inj hmore
      exact .inr ⟨front, rfl⟩

theorem opensSegment_toList_iff {rest : String} :
    OpensSegment rest.toList ↔ rest = "" ∨ ∃ more, rest = "/" ++ more := by
  constructor
  · rintro (hnil | ⟨more, hmore⟩)
    · exact .inl (String.toList_eq_nil_iff.1 hnil)
    · refine .inr ⟨String.ofList more, String.toList_injective ?_⟩
      simpa using hmore
  · rintro (rfl | ⟨more, rfl⟩)
    · exact .inl rfl
    · exact .inr ⟨more.toList, by simp⟩

theorem leads_iff_toList {name text : String} :
    Leads name text ↔ ∃ rest, text.toList = name.toList ++ rest ∧ OpensSegment rest := by
  constructor
  · rintro (rfl | ⟨more, rfl⟩)
    · exact ⟨[], by simp, .inl rfl⟩
    · exact ⟨'/' :: more.toList, by simp, .inr ⟨_, rfl⟩⟩
  · rintro ⟨rest, htext, rfl | ⟨more, rfl⟩⟩
    · exact .inl (String.toList_injective (by simpa using htext))
    · refine .inr ⟨String.ofList more, String.toList_injective ?_⟩
      simpa using htext

theorem segmentRestChars?_eq_some_iff {name text rest : List Char} :
    segmentRestChars? name text = some rest ↔ text = name ++ rest ∧ OpensSegment rest := by
  have hfits : ∀ found, name.isPrefixOf? text = some found ↔ name ++ found = text := fun found =>
    List.isPrefixOf?_eq_some_iff_append_eq
  constructor
  · intro h
    rw [segmentRestChars?] at h
    split at h
    · next hfound =>
      cases h
      exact ⟨((hfits _).1 hfound).symm, .inl rfl⟩
    · next more hfound =>
      cases h
      exact ⟨((hfits _).1 hfound).symm, .inr ⟨more, rfl⟩⟩
    · cases h
  · rintro ⟨htext, rfl | ⟨more, rfl⟩⟩
    · simp [segmentRestChars?, (hfits _).2 htext.symm]
    · simp [segmentRestChars?, (hfits _).2 htext.symm]

theorem segmentRest?_eq_some_iff {name text rest : String} :
    segmentRest? name text = some rest ↔
      text.toList = name.toList ++ rest.toList ∧ OpensSegment rest.toList := by
  rw [segmentRest?, Option.map_eq_some_iff, ← segmentRestChars?_eq_some_iff]
  constructor
  · rintro ⟨found, hfound, rfl⟩
    rw [String.toList_ofList]
    exact hfound
  · exact fun h => ⟨rest.toList, h, String.ofList_toList⟩

theorem isSome_segmentRest?_iff {name text : String} :
    (segmentRest? name text).isSome = true ↔ Leads name text := by
  rw [Option.isSome_iff_exists, leads_iff_toList]
  constructor
  · rintro ⟨rest, h⟩
    exact ⟨rest.toList, segmentRest?_eq_some_iff.1 h⟩
  · rintro ⟨rest, h⟩
    refine ⟨String.ofList rest, segmentRest?_eq_some_iff.2 ?_⟩
    rwa [String.toList_ofList]

theorem segmentRest?_eq_none_iff {name text : String} :
    segmentRest? name text = none ↔ ¬ Leads name text := by
  rw [← isSome_segmentRest?_iff, Bool.not_eq_true, Option.isSome_eq_false_iff,
    Option.isNone_iff_eq_none]

theorem opensSegment_iff {rest : List Char} :
    OpensSegment rest ↔ (rest.isEmpty || rest.head? == some '/') = true := by
  cases rest with
  | nil => exact iff_of_true (.inl rfl) rfl
  | cons c rest => simp [OpensSegment]

theorem isSegmentPrefix_iff {name text : String} :
    isSegmentPrefix name text = true ↔ Leads name text := by
  rw [isSegmentPrefix, Option.any_eq_true, leads_iff_toList]
  refine exists_congr fun rest => and_congr ?_ opensSegment_iff.symm
  rw [List.isPrefixOf?_eq_some_iff_append_eq, eq_comm]

instance (name text : String) : Decidable (Leads name text) :=
  decidable_of_iff _ isSegmentPrefix_iff

theorem Leads.refl (name : String) : Leads name name := .inl rfl

/-- Names that lead each other are of one length, so nothing follows either of them. -/
theorem Leads.antisymm {a b : String} (hab : Leads a b) (hba : Leads b a) : a = b := by
  rcases hab with heq | ⟨more, hmore⟩
  · exact heq.symm
  · rcases hba with heq | ⟨rest, hrest⟩
    · exact heq
    · have hlonger := congrArg String.length hmore
      have hshorter := congrArg String.length hrest
      rw [String.length_append, String.length_append] at hlonger hshorter
      have hslash : "/".length = 1 := rfl
      omega

theorem Leads.trans {a b c : String} (hab : Leads a b) (hbc : Leads b c) : Leads a c := by
  rcases hab with rfl | ⟨more, rfl⟩
  · exact hbc
  · rcases hbc with rfl | ⟨rest, rfl⟩
    · exact .inr ⟨more, rfl⟩
    · exact .inr ⟨more ++ "/" ++ rest, by simp only [String.append_assoc]⟩

/-- What the longer of the two names has more begins where the shorter one ends, so with a slash. -/
theorem Leads.comparable {a b text : String} (ha : Leads a text) (hb : Leads b text) :
    Leads a b ∨ Leads b a := by
  obtain ⟨restA, htextA, hopensA⟩ := leads_iff_toList.1 ha
  obtain ⟨restB, htextB, hopensB⟩ := leads_iff_toList.1 hb
  have heq : a.toList ++ restA = b.toList ++ restB := htextA.symm.trans htextB
  obtain ⟨more, hlonger, hrest⟩ | ⟨more, hlonger, hrest⟩ := List.append_eq_append_iff.1 heq
  · rw [hrest] at hopensA
    exact .inl (leads_iff_toList.2 ⟨more, hlonger, hopensA.of_append⟩)
  · rw [hrest] at hopensB
    exact .inr (leads_iff_toList.2 ⟨more, hlonger, hopensB.of_append⟩)

end Text
end StagedBuild
