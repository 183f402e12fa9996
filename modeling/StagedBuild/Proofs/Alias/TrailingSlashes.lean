import Mathlib.Data.List.Forall2
import StagedBuild.Proofs.Alias.Registration
import StagedBuild.Proofs.Alias.Resolution
import StagedBuild.Proofs.Path.Slashes

/-!
# Slashes that do not matter

Slashes at the end of an alias's directory are trimmed before anything is put behind it, so aliases
may be written with or without them. Slashes at the end of a specifier are trimmed with the whole
path. They do not change which alias leads the specifier either, since a name that does not end in a
slash cannot reach into them.

## Main definitions

* `Path.SameUpToSlashes`: two paths that differ by slashes at their ends.
* `AliasEntry.Variant`: an alias with slashes added to its directory, or taken away.

## Main results

* `Text.leads_append_slashes_iff`: which names lead a specifier with slashes behind it.
* `AliasTable.candidates_of_variants`: other slashes at the directories, the same candidates.
* `AliasTable.Matches.append_slashes`: other slashes at the specifier, the same alias.
* `AliasTable.trailing_slashes_do_not_matter`: both, for candidates and resolutions.
-/

namespace StagedBuild

namespace Path

variable {path other : String}

/-- The paths are one text with slashes behind it, in any number each. -/
def SameUpToSlashes (path other : String) : Prop :=
  ∃ stem slashes more, OnlySlashes slashes ∧ OnlySlashes more ∧
    path = stem ++ slashes ∧ other = stem ++ more

theorem sameUpToSlashes_iff :
    SameUpToSlashes path other ↔ trimSlashes path = trimSlashes other := by
  constructor
  · rintro ⟨stem, slashes, more, hslashes, hmore, rfl, rfl⟩
    rw [trimSlashes_append_of_onlySlashes hslashes, trimSlashes_append_of_onlySlashes hmore]
  · intro h
    obtain ⟨slashes, hslashes, hpath⟩ := exists_trimSlashes_append path
    obtain ⟨more, hmore, hother⟩ := exists_trimSlashes_append other
    rw [← h] at hother
    exact ⟨trimSlashes path, slashes, more, hslashes, hmore, hpath, hother⟩

instance (path other : String) : Decidable (SameUpToSlashes path other) :=
  decidable_of_iff _ sameUpToSlashes_iff.symm

end Path

namespace Text

/-- A name that does not end in a slash leads a specifier before slashes are put behind it, if it
does so afterwards. -/
theorem leads_append_slashes_iff {name text slashes : String}
    (hname : Path.endsInSlash name = false) (hslashes : Path.OnlySlashes slashes) :
    Leads name (text ++ slashes) ↔ Leads name text := by
  rw [leads_iff_toList, leads_iff_toList, String.toList_append]
  constructor
  · rintro ⟨rest, htext, hopens⟩
    obtain ⟨more, hlonger, hsplit⟩ | ⟨more, htext, hrest⟩ := List.append_eq_append_iff.1 htext
    · -- the name reaches into the slashes, so it has none of them
      have hnil : more = [] := by
        cases more using List.reverseRecOn with
        | nil => rfl
        | append_singleton front last =>
          have hlast : last = '/' := hslashes last (by simp [hsplit])
          simp [Path.endsInSlash, hlonger, hlast] at hname
      rw [hnil, List.append_nil] at hlonger
      exact ⟨[], by rw [hlonger, List.append_nil], .inl rfl⟩
    · rw [hrest] at hopens
      exact ⟨more, htext, hopens.of_append⟩
  · rintro ⟨rest, htext, rfl | ⟨more, rfl⟩⟩
    · refine ⟨slashes.toList, by rw [htext, List.append_nil], ?_⟩
      cases hcs : slashes.toList with
      | nil => exact .inl rfl
      | cons c cs =>
        have hc : c = '/' := hslashes c (by simp [hcs])
        exact .inr ⟨cs, by rw [hc]⟩
    · exact ⟨'/' :: (more ++ slashes.toList), by rw [htext]; simp, .inr ⟨_, rfl⟩⟩

end Text

/-- The same name for the same directory, whose path may have other slashes at its end. -/
structure AliasEntry.Variant (entry other : AliasEntry) : Prop where
  name : other.name = entry.name
  path : Path.SameUpToSlashes entry.path other.path

namespace AliasTable

-- ════════════════════════════════════════════════════════════════════════
-- Slashes at the directories
-- ════════════════════════════════════════════════════════════════════════

section Directories

variable {entry other : AliasEntry} {entries others : List AliasEntry}

theorem candidatesOf_of_variant (h : entry.Variant other) (extensions : List String)
    (rest : String) : candidatesOf extensions other rest = candidatesOf extensions entry rest := by
  rw [candidatesOf, candidatesOf, Path.sameUpToSlashes_iff.1 h.path]

/-- The first alias decides if it leads the specifier, and otherwise those behind it do. -/
theorem candidates_cons (extensions : List String) (specifier : String) :
    candidates ⟨entry :: entries, extensions⟩ specifier =
      match Text.segmentRest? entry.name specifier with
      | some rest => candidatesOf extensions entry rest
      | none => candidates ⟨entries, extensions⟩ specifier := by
  rw [candidates, matching?, List.findSome?_cons]
  cases Text.segmentRest? entry.name specifier <;> rfl

theorem candidates_of_variants (h : List.Forall₂ AliasEntry.Variant entries others)
    (extensions : List String) (specifier : String) :
    candidates ⟨others, extensions⟩ specifier = candidates ⟨entries, extensions⟩ specifier := by
  induction h with
  | nil => rfl
  | cons hhead _ ih =>
    rw [candidates_cons, candidates_cons, hhead.name, ih]
    simp only [candidatesOf_of_variant hhead]

theorem names_of_variants (h : List.Forall₂ AliasEntry.Variant entries others) :
    others.map (·.name) = entries.map (·.name) := by
  induction h with
  | nil => rfl
  | cons hhead _ ih => rw [List.map_cons, List.map_cons, hhead.name, ih]

end Directories

-- ════════════════════════════════════════════════════════════════════════
-- Slashes at the specifier
-- ════════════════════════════════════════════════════════════════════════

section Specifier

variable {table : AliasTable} {specifier rest slashes : String} {entry : AliasEntry}

/-- The alias that decides for a specifier longer than its name still decides when slashes are put
behind the specifier. -/
theorem Matches.append_slashes (h : table.Matches specifier entry rest) (hrest : rest ≠ "")
    (hnames : ∀ entry ∈ table.entries, Path.endsInSlash entry.name = false)
    (hslashes : Path.OnlySlashes slashes) :
    table.Matches (specifier ++ slashes) entry (rest ++ slashes) := by
  obtain ⟨⟨before, after, hsplit, hbefore⟩, hspecifier, hopens⟩ := h
  refine ⟨⟨before, after, hsplit, ?_⟩, ?_, ?_⟩
  · intro earlier hearlier
    have hname := hnames earlier (by simp [hsplit, hearlier])
    rw [Text.leads_append_slashes_iff hname hslashes]
    exact hbefore earlier hearlier
  · rw [hspecifier, String.append_assoc]
  · obtain ⟨more, rfl⟩ := hopens.resolve_left hrest
    exact .inr ⟨more ++ slashes, by rw [String.append_assoc]⟩

theorem candidatesOf_append_slashes (hrest : rest ≠ "") (hslashes : Path.OnlySlashes slashes)
    (extensions : List String) (entry : AliasEntry) :
    candidatesOf extensions entry (rest ++ slashes) = candidatesOf extensions entry rest := by
  have hlonger : rest ++ slashes ≠ "" := by simp [hrest]
  rw [candidatesOf_of_ne hlonger, candidatesOf_of_ne hrest, ← String.append_assoc,
    Path.trimSlashes_append_of_onlySlashes hslashes]

end Specifier

/-- Aliases that can be registered can be registered with other slashes at the ends of their
directories too, and the two tables have the same candidates for every specifier, find the same file
among any files and ask about the same paths on the way. If no name of a table ends in a slash, any
number of slashes may be put behind a specifier that is longer than the name of the alias that
decides for it: the same alias decides, the candidates are the same, and so are the file that is
found and the paths that are asked about. -/
theorem trailing_slashes_do_not_matter :
    (∀ (entries others : List AliasEntry) (extensions : List String) (table : AliasTable),
      ofEntries entries extensions = .ok table → List.Forall₂ AliasEntry.Variant entries others →
      ∃ other, ofEntries others extensions = .ok other ∧
        ∀ specifier, other.candidates specifier = table.candidates specifier ∧
          ∀ isFile, (other.resolve isFile specifier).path = (table.resolve isFile specifier).path ∧
            (other.resolve isFile specifier).asked = (table.resolve isFile specifier).asked) ∧
    ∀ (table : AliasTable), (∀ entry ∈ table.entries, Path.endsInSlash entry.name = false) →
      ∀ specifier entry rest, table.Matches specifier entry rest →
        entry.name.length < specifier.length → ∀ slashes, Path.OnlySlashes slashes →
          table.Matches (specifier ++ slashes) entry (rest ++ slashes) ∧
          table.candidates (specifier ++ slashes) = table.candidates specifier ∧
          ∀ isFile, (table.resolve isFile (specifier ++ slashes)).path =
              (table.resolve isFile specifier).path ∧
            (table.resolve isFile (specifier ++ slashes)).asked =
              (table.resolve isFile specifier).asked := by
  constructor
  · intro entries others extensions table htable hvariants
    obtain ⟨hsound, rfl⟩ := ofEntries_eq_ok_iff.1 htable
    rw [← names_of_variants hvariants] at hsound
    refine ⟨_, ofEntries_of_sound hsound extensions, ?_⟩
    intro specifier
    have hcandidates := candidates_of_variants hvariants extensions specifier
    refine ⟨hcandidates, fun isFile => ?_⟩
    rw [resolve, resolve, hcandidates]
    exact ⟨rfl, rfl⟩
  · intro table hnames specifier entry rest hmatches hlonger slashes hslashes
    have hrest : rest ≠ "" := hmatches.length_lt_iff.1 hlonger
    have hmore := hmatches.append_slashes hrest hnames hslashes
    have hcandidates : table.candidates (specifier ++ slashes) = table.candidates specifier := by
      rw [candidates_of_matches hmore, candidates_of_matches hmatches,
        candidatesOf_append_slashes hrest hslashes]
    refine ⟨hmore, hcandidates, fun isFile => ?_⟩
    rw [resolve, resolve, hcandidates]
    exact ⟨rfl, rfl⟩

-- a name nested in another one, a directory with slashes at its end and one without

def slashedAliases : List AliasEntry :=
  [⟨"store/cart", "/cart//"⟩, ⟨"store", "/state"⟩]

def otherSlashedAliases : List AliasEntry :=
  [⟨"store/cart", "/cart"⟩, ⟨"store", "/state/"⟩]

theorem slashedAliases_variants :
    List.Forall₂ AliasEntry.Variant slashedAliases otherSlashedAliases :=
  .cons ⟨rfl, by decide +kernel⟩ (.cons ⟨rfl, by decide +kernel⟩ .nil)

/-- Slashes only behind a name count as more than the name, so more of them change nothing. The name
without any stands for the index file alone. -/
theorem slashedAliases_candidates :
    (∃ other, ofEntries otherSlashedAliases [".js"] = .ok other ∧
      other.candidates "store/cart/item" = candidates ⟨slashedAliases, [".js"]⟩ "store/cart/item") ∧
    candidates ⟨slashedAliases, [".js"]⟩ "store/cart///" =
      candidates ⟨slashedAliases, [".js"]⟩ "store/cart/" ∧
    candidates ⟨slashedAliases, [".js"]⟩ "store/cart/" ≠
      candidates ⟨slashedAliases, [".js"]⟩ "store/cart" := by
  obtain ⟨hdirectories, hspecifiers⟩ := trailing_slashes_do_not_matter
  have htable : ofEntries slashedAliases [".js"] = .ok ⟨slashedAliases, [".js"]⟩ := by
    decide +kernel
  obtain ⟨other, hother, hsame⟩ :=
    hdirectories _ otherSlashedAliases _ _ htable slashedAliases_variants
  have hmatches : Matches ⟨slashedAliases, [".js"]⟩ "store/cart/" ⟨"store/cart", "/cart//"⟩ "/" :=
    ⟨⟨[], _, rfl, by simp⟩, rfl, .inr ⟨"", rfl⟩⟩
  obtain ⟨-, hcandidates, -⟩ := hspecifiers _ (by decide +kernel) _ _ _ hmatches (by decide) "//"
    (by decide +kernel)
  exact ⟨⟨other, hother, (hsame _).1⟩, hcandidates, by decide +kernel⟩

end AliasTable
end StagedBuild
