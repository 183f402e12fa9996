import StagedBuild.Proofs.Alias.History
import StagedBuild.Proofs.Alias.Resolution

/-!
# The order that aliases are matched in

The relation that tells the copies of a package from other modules is an order on texts: every text
leads itself and those that go on after it with a slash. An alias table uses no other relation. Its
match for a specifier is the first entry whose name leads the specifier, and all names that do so are
comparable.

## Main results

* `Text.leads_iff_exists_rest`: a name leads what goes on after it with a slash, or not at all.
* `AliasTable.exists_matching?_iff`: the entry that a table picks.
* `AliasTable.segment_order_decides_matches`: the order, and what a table picks by it.
-/

namespace StagedBuild

theorem Text.leads_iff_exists_rest {name text : String} :
    Leads name text ↔ ∃ rest, text = name ++ rest ∧ (rest = "" ∨ ∃ more, rest = "/" ++ more) := by
  constructor
  · rintro (rfl | ⟨more, rfl⟩)
    · exact ⟨"", String.append_empty.symm, .inl rfl⟩
    · exact ⟨"/" ++ more, String.append_assoc, .inr ⟨more, rfl⟩⟩
  · rintro ⟨_, rfl, rfl | ⟨more, rfl⟩⟩
    · exact .inl String.append_empty
    · exact .inr ⟨more, String.append_assoc.symm⟩

namespace AliasTable

variable {table : AliasTable} {specifier : String} {entry : AliasEntry}

/-- A table picks the first entry whose name leads the specifier. -/
theorem exists_matching?_iff : (∃ rest, table.matching? specifier = some (entry, rest)) ↔
    ∃ before after, table.entries = before ++ entry :: after ∧
      (∀ earlier ∈ before, ¬ Text.Leads earlier.name specifier) ∧
      Text.Leads entry.name specifier := by
  simp only [matching?_eq_some_iff]
  constructor
  · rintro ⟨rest, ⟨before, after, hsplit, hbefore⟩, hspecifier, hopens⟩
    exact ⟨before, after, hsplit, hbefore,
      Text.leads_iff_exists_rest.2 ⟨rest, hspecifier, hopens⟩⟩
  · rintro ⟨before, after, hsplit, hbefore, hleads⟩
    obtain ⟨rest, hspecifier, hopens⟩ := Text.leads_iff_exists_rest.1 hleads
    exact ⟨rest, ⟨before, after, hsplit, hbefore⟩, hspecifier, hopens⟩

/-- A module is a copy of a package exactly if it is the package or goes on after it with a slash. This
relation is reflexive, antisymmetric and transitive, and of two texts that lead a third, one leads the
other. A table has a match for a specifier exactly if one of its names leads the specifier by the same
relation, and it picks the first entry that does. -/
theorem segment_order_decides_matches :
    (∀ package module, Text.isSegmentPrefix package module = true ↔
      module = package ∨ ∃ more, module = package ++ "/" ++ more) ∧
    (∀ a, Text.isSegmentPrefix a a = true) ∧
    (∀ a b, Text.isSegmentPrefix a b = true → Text.isSegmentPrefix b a = true → a = b) ∧
    (∀ a b c, Text.isSegmentPrefix a b = true → Text.isSegmentPrefix b c = true →
      Text.isSegmentPrefix a c = true) ∧
    (∀ a b text, Text.isSegmentPrefix a text = true → Text.isSegmentPrefix b text = true →
      Text.isSegmentPrefix a b = true ∨ Text.isSegmentPrefix b a = true) ∧
    ∀ (table : AliasTable) (specifier : String),
      ((table.matching? specifier).isSome = true ↔
        ∃ name ∈ table.entries.map (·.name), Text.isSegmentPrefix name specifier = true) ∧
      ∀ entry, (∃ rest, table.matching? specifier = some (entry, rest)) ↔
        ∃ before after, table.entries = before ++ entry :: after ∧
          (∀ earlier ∈ before, Text.isSegmentPrefix earlier.name specifier = false) ∧
          Text.isSegmentPrefix entry.name specifier = true := by
  simp only [← Bool.not_eq_true, Text.isSegmentPrefix_iff]
  refine ⟨fun _ _ => .rfl, Text.Leads.refl, fun _ _ => Text.Leads.antisymm,
    fun _ _ _ => Text.Leads.trans, fun _ _ _ => Text.Leads.comparable, ?_⟩
  intro table specifier
  refine ⟨?_, fun entry => exists_matching?_iff⟩
  simp only [isSome_matching?_iff, Text.isSegmentPrefix_iff, List.mem_map, exists_exists_and_eq_and]

/-- Names that are empty, or end in a slash, or are followed by two. -/
theorem matching?_slashedNames :
    (Text.isSegmentPrefix "" "/pages" = true ∧ Text.isSegmentPrefix "/pages" "/pages//new" = true ∧
      Text.isSegmentPrefix "" "/pages//new" = true) ∧
    (Text.isSegmentPrefix "pages/" "pages//new" = true ∧
      Text.isSegmentPrefix "pages" "pages//new" = true ∧
      (Text.isSegmentPrefix "pages" "pages/" = true ∨ Text.isSegmentPrefix "pages/" "pages" = true)) ∧
    ∃ rest, (⟨[⟨"page", "/a"⟩, ⟨"pages/", "/b"⟩, ⟨"pages", "/c"⟩], [".js"]⟩ : AliasTable).matching?
      "pages//new" = some (⟨"pages/", "/b"⟩, rest) := by
  obtain ⟨-, -, -, htrans, hcomparable, htable⟩ := segment_order_decides_matches
  have htop : Text.isSegmentPrefix "" "/pages" = true := by decide +kernel
  have hpages : Text.isSegmentPrefix "/pages" "/pages//new" = true := by decide +kernel
  have hslash : Text.isSegmentPrefix "pages/" "pages//new" = true := by decide +kernel
  have hname : Text.isSegmentPrefix "pages" "pages//new" = true := by decide +kernel
  refine ⟨⟨htop, hpages, htrans _ _ _ htop hpages⟩,
    ⟨hslash, hname, hcomparable _ _ _ hname hslash⟩, ((htable _ _).2 _).2 ?_⟩
  exact ⟨[⟨"page", "/a"⟩], [⟨"pages", "/c"⟩], rfl, by decide +kernel, hslash⟩

end AliasTable
end StagedBuild
