import Mathlib.Data.List.Basic
import StagedBuild.Alias.Resolution
import StagedBuild.Proofs.Alias.Registration
import StagedBuild.Proofs.Text.SegmentPrefix
import StagedBuild.Proofs.Traversal

/-!
# The order of aliases

Of the aliases that lead a specifier, the one that was registered first decides where the specifier
is looked for. When no alias name leads another one, a specifier is led by one alias at most, and
then the order of the aliases does not matter.

## Main definitions

* `AliasTable.Unnested`: no name is another one with a slash and more behind it.

## Main results

* `AliasTable.findSome?_eq_of_perm`: a search that has one hit at most finds it in any order.
* `AliasTable.candidates_of_first`: the first alias that leads a specifier decides.
* `AliasTable.order_matters_only_for_nested_names`: what the order of the aliases changes.
-/

namespace StagedBuild
namespace AliasTable

/-- No name is another one that is followed by a slash and anything. -/
def Unnested (names : List String) : Prop :=
  ∀ name ∈ names, ∀ other ∈ names, ∀ more, other ≠ name ++ "/" ++ more

theorem unnested_iff {names : List String} : Unnested names ↔
    ∀ name ∈ names, ∀ other ∈ names, Text.Leads name other → other = name := by
  constructor
  · rintro h name hname other hother (heq | ⟨more, hmore⟩)
    · exact heq
    · exact absurd hmore (h name hname other hother more)
  · intro h name hname other hother more hmore
    have hlength := congrArg String.length (h name hname other hother (.inr ⟨more, hmore⟩))
    rw [hmore, String.length_append, String.length_append] at hlength
    have hslash : "/".length = 1 := rfl
    omega

instance (names : List String) : Decidable (Unnested names) :=
  decidable_of_iff _ unnested_iff.symm

theorem findSome?_eq_of_perm {α β : Type} {f : α → Option β} {xs ys : List α} (hperm : xs.Perm ys)
    (hunique : ∀ x ∈ ys, ∀ y ∈ ys, (f x).isSome = true → (f y).isSome = true → x = y) :
    xs.findSome? f = ys.findSome? f := by
  cases hys : ys.findSome? f with
  | none =>
    rw [List.findSome?_eq_none_iff] at hys ⊢
    exact fun x hx => hys x (hperm.mem_iff.1 hx)
  | some found =>
    obtain ⟨y, hy, hfound⟩ := List.exists_of_findSome?_eq_some hys
    have hsome : (xs.findSome? f).isSome = true :=
      List.findSome?_isSome_iff.2 ⟨y, hperm.mem_iff.2 hy, Option.isSome_of_eq_some hfound⟩
    obtain ⟨other, hother⟩ := Option.isSome_iff_exists.1 hsome
    obtain ⟨x, hx, hxother⟩ := List.exists_of_findSome?_eq_some hother
    obtain rfl : x = y := hunique x (hperm.mem_iff.1 hx) y hy (Option.isSome_of_eq_some hxother)
      (Option.isSome_of_eq_some hfound)
    rw [hother, ← hxother, hfound]

-- ════════════════════════════════════════════════════════════════════════
-- The alias that decides
-- ════════════════════════════════════════════════════════════════════════

variable {entries others : List AliasEntry} {specifier : String}

/-- Aliases with sound names of which none leads another do not share a specifier. -/
theorem eq_of_leads (hsound : Sound (entries.map (·.name)))
    (hunnested : Unnested (entries.map (·.name))) {a b : AliasEntry} (ha : a ∈ entries)
    (hb : b ∈ entries) (hleadsA : Text.Leads a.name specifier)
    (hleadsB : Text.Leads b.name specifier) : a = b := by
  have hname : a.name ∈ entries.map (·.name) := List.mem_map_of_mem ha
  have hother : b.name ∈ entries.map (·.name) := List.mem_map_of_mem hb
  have hsame : a.name = b.name := by
    rcases hleadsA.comparable hleadsB with hleads | hleads
    · exact (unnested_iff.1 hunnested _ hname _ hother hleads).symm
    · exact unnested_iff.1 hunnested _ hother _ hname hleads
  exact List.inj_on_of_nodup_map hsound.2 ha hb hsame

theorem matching?_of_perm (hperm : others.Perm entries) (hsound : Sound (entries.map (·.name)))
    (hunnested : Unnested (entries.map (·.name))) (extensions : List String) (specifier : String) :
    matching? ⟨others, extensions⟩ specifier = matching? ⟨entries, extensions⟩ specifier := by
  apply findSome?_eq_of_perm hperm
  intro a ha b hb hleadsA hleadsB
  rw [Option.isSome_map, Text.isSome_segmentRest?_iff] at hleadsA hleadsB
  exact eq_of_leads hsound hunnested ha hb hleadsA hleadsB

/-- The first alias that leads a specifier decides as if it were alone. -/
theorem candidates_of_first {before after : List AliasEntry} {first : AliasEntry}
    (hbefore : ∀ earlier ∈ before, ¬ Text.Leads earlier.name specifier)
    (hfirst : Text.Leads first.name specifier) (extensions : List String) :
    candidates ⟨before ++ first :: after, extensions⟩ specifier =
      candidates ⟨[first], extensions⟩ specifier := by
  have hskipped : before.findSome? (fun entry =>
      (Text.segmentRest? entry.name specifier).map (entry, ·)) = none := by
    rw [List.findSome?_eq_none_iff]
    intro earlier hearlier
    rw [Text.segmentRest?_eq_none_iff.2 (hbefore earlier hearlier), Option.map_none]
  obtain ⟨rest, hrest⟩ := Option.isSome_iff_exists.1 (Text.isSome_segmentRest?_iff.2 hfirst)
  have hmatching : matching? ⟨before ++ first :: after, extensions⟩ specifier =
      matching? ⟨[first], extensions⟩ specifier := by
    simp [matching?, List.findSome?_append, hskipped, hrest]
  rw [candidates, candidates, hmatching]

-- ════════════════════════════════════════════════════════════════════════
-- When the order matters
-- ════════════════════════════════════════════════════════════════════════

/-- Two lists of the same aliases, with sound names of which none is another one with a slash and
more behind it, make tables that look for every specifier in the same places, find the same file and
ask about the same paths on the way. In any table the first alias that leads a specifier decides,
and whatever is registered after it has no influence. -/
theorem order_matters_only_for_nested_names :
    (∀ (entries others : List AliasEntry) (extensions : List String), others.Perm entries →
      (∀ name ∈ entries.map (·.name), name ≠ "") → (entries.map (·.name)).Nodup →
      Unnested (entries.map (·.name)) →
      ∃ table other, ofEntries entries extensions = .ok table ∧
        ofEntries others extensions = .ok other ∧
        ∀ specifier, other.candidates specifier = table.candidates specifier ∧
          ∀ isFile, (other.resolve isFile specifier).path = (table.resolve isFile specifier).path ∧
            (other.resolve isFile specifier).asked = (table.resolve isFile specifier).asked) ∧
    ∀ (table : AliasTable) (specifier : String),
      (∃ entry ∈ table.entries, Text.Leads entry.name specifier) →
      ∃ before first after, table.entries = before ++ first :: after ∧
        (∀ earlier ∈ before, ¬ Text.Leads earlier.name specifier) ∧
        Text.Leads first.name specifier ∧
        table.candidates specifier = candidates ⟨[first], table.extensions⟩ specifier ∧
        ∀ later, candidates ⟨before ++ first :: later, table.extensions⟩ specifier =
          table.candidates specifier := by
  constructor
  · intro entries others extensions hperm hnames hnodup hunnested
    have hsound : Sound (entries.map (·.name)) := ⟨hnames, hnodup⟩
    have hothers : Sound (others.map (·.name)) := by
      have hmap := hperm.map (·.name)
      exact ⟨fun name hname => hnames name (hmap.mem_iff.1 hname), hmap.nodup_iff.2 hnodup⟩
    refine ⟨_, _, ofEntries_of_sound hsound extensions, ofEntries_of_sound hothers extensions, ?_⟩
    intro specifier
    have hcandidates : candidates ⟨others, extensions⟩ specifier =
        candidates ⟨entries, extensions⟩ specifier := by
      rw [candidates, candidates, matching?_of_perm hperm hsound hunnested]
    refine ⟨hcandidates, ?_⟩
    intro isFile
    rw [resolve, resolve, hcandidates]
    exact ⟨rfl, rfl⟩
  · rintro ⟨entries, extensions⟩ specifier hleads
    obtain ⟨before, first, after, rfl, hbefore, hfirst⟩ := Traversal.exists_first hleads
    have halone : ∀ later, candidates ⟨before ++ first :: later, extensions⟩ specifier =
        candidates ⟨[first], extensions⟩ specifier :=
      fun later => candidates_of_first hbefore hfirst extensions
    refine ⟨before, first, after, rfl, hbefore, hfirst, halone after, ?_⟩
    intro later
    rw [halone later, ← halone after]

-- two aliases of which the first one's name is nested in the second one's, and two that are not nested

def nestedAliases : List AliasEntry :=
  [⟨"store/cart", "/cart/"⟩, ⟨"store", "/state"⟩]

def plainAliases : List AliasEntry :=
  [⟨"pages", "/pages/"⟩, ⟨"store", "/state"⟩]

theorem reverse_plainAliases :
    Unnested (plainAliases.map (·.name)) ∧
    (∃ table other, ofEntries plainAliases [".js"] = .ok table ∧
      ofEntries plainAliases.reverse [".js"] = .ok other ∧
      other.candidates "store/cart" = table.candidates "store/cart") ∧
    ¬ Unnested (nestedAliases.map (·.name)) ∧
    candidates ⟨nestedAliases.reverse, [".js"]⟩ "store/cart" =
      candidates ⟨[⟨"store", "/state"⟩], [".js"]⟩ "store/cart" ∧
    candidates ⟨nestedAliases.reverse, [".js"]⟩ "store/cart" ≠
      candidates ⟨nestedAliases, [".js"]⟩ "store/cart" := by
  obtain ⟨hperm, hfirst⟩ := order_matters_only_for_nested_names
  have hunnested : Unnested (plainAliases.map (·.name)) := by decide +kernel
  obtain ⟨table, other, htable, hother, hsame⟩ := hperm plainAliases plainAliases.reverse [".js"]
    (List.reverse_perm plainAliases) (by decide +kernel) (by decide +kernel) hunnested
  have hleads : Text.Leads "store" "store/cart" := by decide +kernel
  obtain ⟨before, first, after, hsplit, hbefore, -, halone, -⟩ :=
    hfirst ⟨nestedAliases.reverse, [".js"]⟩ "store/cart" ⟨_, List.mem_cons_self, hleads⟩
  obtain rfl : before = [] := by
    cases before with
    | nil => rfl
    | cons earlier before =>
      obtain ⟨rfl, -⟩ := List.cons.inj hsplit
      exact absurd hleads (hbefore _ List.mem_cons_self)
  obtain ⟨rfl, -⟩ := List.cons.inj hsplit
  exact ⟨hunnested, ⟨table, other, htable, hother, (hsame _).1⟩, by decide +kernel, halone,
    by decide +kernel⟩

end AliasTable
end StagedBuild
