import StagedBuild.Proofs.Alias.Resolution
import StagedBuild.Proofs.Path.Slashes

/-!
# Candidates inside the directory

The candidates of a specifier lie in the directory of its alias, as texts, unless the specifier goes on
after the name with slashes only. Then all of these are trimmed away, what is left is the path of the
directory itself, and with an extension behind it that is a path beside the directory.

## Main definitions

* `AliasTable.EndsInSlashes`: something follows the name, and it is slashes only.

## Main results

* `AliasTable.inside_of_mem_candidatesOf`: the candidates that lie in the directory.
* `AliasTable.mem_candidatesOf_and_not_inside_iff`: the candidates that do not.

The last theorem says for which specifiers a resolution stays in the directory.
-/

namespace StagedBuild
namespace AliasTable

/-- Something follows the name of the alias, but nothing that leads into its directory. -/
def EndsInSlashes (rest : String) : Prop :=
  rest ≠ "" ∧ Path.OnlySlashes rest

instance (rest : String) : Decidable (EndsInSlashes rest) :=
  inferInstanceAs (Decidable (_ ∧ _))

variable {table : AliasTable} {specifier rest path : String} {entry : AliasEntry}
  {extensions : List String}

/-- What follows a name begins with a slash, and this slash stays when more than slashes follow it. -/
theorem inside_of_mem_candidatesOf (hopens : rest = "" ∨ ∃ more, rest = "/" ++ more)
    (hrest : ¬ EndsInSlashes rest) (hmem : path ∈ candidatesOf extensions entry rest) :
    Path.Inside (Path.trimSlashes entry.path) path := by
  obtain rfl | ⟨more, rfl⟩ := hopens
  · rw [candidatesOf_empty, String.append_empty, Path.trimSlashes_trimSlashes] at hmem
    obtain ⟨ext, -, rfl⟩ := List.mem_map.1 hmem
    have hindex : Path.Inside (Path.trimSlashes entry.path)
        (Path.trimSlashes entry.path ++ "/index") := Path.inside_append_iff.2 (by decide)
    exact hindex.append ext
  · have hne : "/" ++ more ≠ "" := by simp
    have hmore : ¬ Path.OnlySlashes ("/" ++ more) := fun hslashes => hrest ⟨hne, hslashes⟩
    have hbase : Path.Inside (Path.trimSlashes entry.path)
        (Path.trimSlashes entry.path ++ "/" ++ Path.trimSlashes more) := ⟨_, rfl⟩
    rw [candidatesOf_of_ne hne, Path.trimSlashes_append_slash hmore, List.cons_append,
      List.mem_cons, List.mem_append, List.mem_map, List.mem_map] at hmem
    obtain rfl | ⟨ext, -, rfl⟩ | ⟨ext, -, rfl⟩ := hmem
    · exact hbase
    · exact hbase.append ext
    · exact (hbase.append "/index").append ext

/-- When only slashes follow the name, the directory's own path is tried, also with each extension. -/
theorem candidatesOf_of_endsInSlashes (hrest : EndsInSlashes rest) (extensions : List String)
    (entry : AliasEntry) :
    let directory := Path.trimSlashes entry.path
    candidatesOf extensions entry rest = directory :: extensions.map (directory ++ ·) ++
      extensions.map (directory ++ "/index" ++ ·) := by
  intro directory
  rw [candidatesOf_of_ne hrest.1, Path.trimSlashes_append_of_onlySlashes hrest.2,
    Path.trimSlashes_trimSlashes]

theorem mem_candidatesOf_and_not_inside_iff (hrest : EndsInSlashes rest) :
    let directory := Path.trimSlashes entry.path
    path ∈ candidatesOf extensions entry rest ∧ ¬ Path.Inside directory path ↔
      path = directory ∨
        ∃ ext ∈ extensions, Path.isAbsolute ext = false ∧ path = directory ++ ext := by
  intro directory
  rw [candidatesOf_of_endsInSlashes hrest, List.cons_append, List.mem_cons, List.mem_append,
    List.mem_map, List.mem_map]
  constructor
  · rintro ⟨rfl | ⟨ext, hext, rfl⟩ | ⟨ext, hext, rfl⟩, hout⟩
    · exact .inl rfl
    · rw [Path.inside_append_iff, Bool.not_eq_true] at hout
      exact .inr ⟨ext, hext, hout, rfl⟩
    · have hindex : Path.Inside directory (directory ++ "/index") :=
        Path.inside_append_iff.2 (by decide)
      exact absurd (hindex.append ext) hout
  · rintro (rfl | ⟨ext, hext, hrelative, rfl⟩)
    · exact ⟨.inl rfl, Path.not_inside_self⟩
    · refine ⟨.inr (.inl ⟨ext, hext, rfl⟩), ?_⟩
      rw [Path.inside_append_iff, hrelative]
      exact Bool.false_ne_true

/-- The candidates of a specifier lie in the directory of the alias that leads it, and so do the paths
that a resolution asks about, exactly unless something follows the alias's name and it is slashes only.
In that case the candidates outside are the directory's own path, which is asked about first, and this
path with an extension behind it. A path that is returned is one that was asked about. -/
theorem candidates_inside_iff (hmatches : table.Matches specifier entry rest) :
    let directory := Path.trimSlashes entry.path
    ((∀ path ∈ table.candidates specifier, Path.Inside directory path) ↔ ¬ EndsInSlashes rest) ∧
    (EndsInSlashes rest → ∀ path,
      path ∈ table.candidates specifier ∧ ¬ Path.Inside directory path ↔
        path = directory ∨
          ∃ ext ∈ table.extensions, Path.isAbsolute ext = false ∧ path = directory ++ ext) ∧
    ∀ isFile, let resolution := table.resolve isFile specifier
      ((∀ path ∈ resolution.asked, Path.Inside directory path) ↔ ¬ EndsInSlashes rest) ∧
      (EndsInSlashes rest → resolution.asked.head? = some directory) ∧
      ∀ path, resolution.path = some path → path ∈ resolution.asked := by
  intro directory
  have hcandidates : table.candidates specifier = candidatesOf table.extensions entry rest :=
    candidates_of_matches hmatches
  have hinside : ¬ EndsInSlashes rest →
      ∀ path ∈ table.candidates specifier, Path.Inside directory path := by
    intro hrest path hmem
    rw [hcandidates] at hmem
    exact inside_of_mem_candidatesOf hmatches.opens hrest hmem
  have houtside : EndsInSlashes rest → ∀ path,
      path ∈ table.candidates specifier ∧ ¬ Path.Inside directory path ↔
        path = directory ∨
          ∃ ext ∈ table.extensions, Path.isAbsolute ext = false ∧ path = directory ++ ext := by
    intro hrest path
    rw [hcandidates]
    exact mem_candidatesOf_and_not_inside_iff hrest
  refine ⟨⟨?_, hinside⟩, houtside, ?_⟩
  · intro hall hrest
    obtain ⟨hmem, hout⟩ := (houtside hrest directory).2 (.inl rfl)
    exact hout (hall directory hmem)
  · intro isFile resolution
    obtain ⟨hfront, hhead⟩ := Resolution.asked_firstFile isFile (table.candidates specifier)
    have hfirst : EndsInSlashes rest → resolution.asked.head? = some directory := by
      intro hrest
      refine hhead.trans ?_
      rw [hcandidates, candidatesOf_of_endsInSlashes hrest]
      rfl
    refine ⟨⟨?_, ?_⟩, hfirst, fun path h => Resolution.mem_asked_firstFile h⟩
    · intro hall hrest
      exact Path.not_inside_self (hall directory (List.mem_of_mem_head? (hfirst hrest)))
    · intro hrest path hasked
      exact hinside hrest path (hfront.subset hasked)

-- one alias, and specifiers that are its name, go on into its directory, or only add a slash

def storeTable : AliasTable :=
  ⟨[⟨"store", "/src/store/"⟩], [".js"]⟩

theorem storeTable_matches {rest : String} (h : rest = "" ∨ ∃ more, rest = "/" ++ more) :
    storeTable.Matches ("store" ++ rest) ⟨"store", "/src/store/"⟩ rest :=
  ⟨⟨[], [], rfl, by simp⟩, rfl, h⟩

/-- With a slash behind the name, a file beside the directory is looked for. -/
theorem candidates_storeTable :
    (∀ path ∈ storeTable.candidates "store", Path.Inside "/src/store" path) ∧
    (∀ path ∈ storeTable.candidates "store/cart", Path.Inside "/src/store" path) ∧
    "/src/store.js" ∈ storeTable.candidates "store/" ∧
    ¬ Path.Inside "/src/store" "/src/store.js" ∧
    (storeTable.resolve (· == "/src/store.js") "store/").path = some "/src/store.js" := by
  have hdirectory : Path.trimSlashes "/src/store/" = "/src/store" := by decide +kernel
  obtain ⟨hname, -, -⟩ := candidates_inside_iff (storeTable_matches (.inl rfl))
  obtain ⟨hcart, -, -⟩ := candidates_inside_iff (storeTable_matches (.inr ⟨"cart", rfl⟩))
  obtain ⟨-, hslash, -⟩ := candidates_inside_iff (storeTable_matches (.inr ⟨"", rfl⟩))
  rw [hdirectory] at hname hcart hslash
  obtain ⟨hmem, hout⟩ := (hslash (by decide +kernel) "/src/store.js").2 (.inr ⟨".js", by decide +kernel⟩)
  exact ⟨hname.2 (by decide +kernel), hcart.2 (by decide +kernel), hmem, hout, by decide +kernel⟩

/-- The candidates of a specifier need not lie in the directory of its alias. -/
theorem not_forall_candidates_inside : ¬ ∀ (entries : List AliasEntry) (extensions : List String)
    (table : AliasTable), ofEntries entries extensions = .ok table →
    ∀ specifier entry rest, table.Matches specifier entry rest →
    ∀ path ∈ table.candidates specifier, Path.Inside (Path.trimSlashes entry.path) path := by
  intro h
  have hregistered : ofEntries [⟨"store", "/src/store/"⟩] [".js"] = .ok storeTable := by decide +kernel
  have hinside := h _ _ storeTable hregistered _ _ _ (storeTable_matches (.inr ⟨"", rfl⟩))
    "/src/store.js" (by decide +kernel)
  exact absurd hinside (by decide +kernel)

end AliasTable
end StagedBuild
