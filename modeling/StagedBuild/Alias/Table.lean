import StagedBuild.Alias.Entry
import StagedBuild.BuildFailure
import StagedBuild.Path
import StagedBuild.Text.Segment

/-!
# Alias tables

A table of aliases is built by registering one entry after the other. An import specifier that an
alias leads is looked for at a fixed list of candidates below the alias's directory.

## Main definitions

* `AliasTable`: the registered entries and the extensions to try.
* `AliasTable.register`: one more entry, or the reason why it is refused.
* `AliasTable.ofEntries`: a whole table.
* `AliasTable.matching?`: the first entry whose name leads a specifier.
* `AliasTable.candidates`: where a specifier is looked for, in order.

## Design notes

Slashes at the end count neither in the alias's directory nor in the whole path. So when nothing but
slashes follows the name, the directory's own path is tried, and so is that path with each extension.
-/

namespace StagedBuild

/-- Aliases in the order of their registration, and the extensions of files that may be meant. -/
structure AliasTable where
  entries : List AliasEntry
  extensions : List String
deriving DecidableEq, Repr

namespace AliasTable

/-- Script, style sheet, compiled style sheet, typed source and component. -/
def defaultExtensions : List String :=
  [".js", ".scss", ".css", ".ts", ".svelte"]

def empty (extensions : List String) : AliasTable :=
  ⟨[], extensions⟩

instance : Inhabited AliasTable := ⟨empty defaultExtensions⟩

/-- The table with one more entry. An empty name is refused, and so is one that is taken. -/
def register (table : AliasTable) (entry : AliasEntry) : Except BuildFailure AliasTable :=
  if entry.name = "" then .error .emptyAliasName
  else if entry.name ∈ table.entries.map (·.name) then .error (.duplicateAlias entry.name)
  else .ok { table with entries := table.entries ++ [entry] }

/-- The table of the listed entries; the first entry that is refused decides the failure. -/
def ofEntries (entries : List AliasEntry) (extensions : List String) :
    Except BuildFailure AliasTable :=
  entries.foldlM register (empty extensions)

/-- The first entry whose name is the specifier or a leading part of it that ends at a slash, with
what follows the name. -/
def matching? (table : AliasTable) (specifier : String) : Option (AliasEntry × String) :=
  table.entries.findSome? fun entry => (Text.segmentRest? entry.name specifier).map (entry, ·)

/-- The candidates for an entry and what follows its name. A specifier that goes on after the name
is tried as it stands and with each extension; then an index file is looked for in the directory. -/
def candidatesOf (extensions : List String) (entry : AliasEntry) (rest : String) : List String :=
  let base := Path.trimSlashes (Path.trimSlashes entry.path ++ rest)
  (if rest = "" then [] else base :: extensions.map (base ++ ·)) ++
    extensions.map (base ++ "/index" ++ ·)

/-- Where a specifier is looked for; nowhere when no alias leads it. -/
def candidates (table : AliasTable) (specifier : String) : List String :=
  match table.matching? specifier with
  | none => []
  | some (entry, rest) => candidatesOf table.extensions entry rest

def defaultNames : List String :=
  ["styles", "components", "pages", "store", "locales"]

/-- The aliases that every project has: each names the directory of its name below `src`. -/
def defaultEntries (root : String) : List AliasEntry :=
  defaultNames.map fun name => ⟨name, Path.join (Path.join root "src") name ++ "/"⟩

end AliasTable
end StagedBuild
