import StagedBuild.Alias.Table

/-!
# Resolving an aliased specifier

## Main definitions

* `Resolution`: the file that was found, and the paths that were asked about.
* `AliasTable.resolve`: the first candidate that is a file.
-/

namespace StagedBuild

structure Resolution where
  path : Option String
  /-- The paths that were asked about, in order. -/
  asked : List String
deriving DecidableEq, Repr

namespace Resolution

/-- Ask about each path in turn until one is a file. -/
def firstFile (isFile : String → Bool) : List String → Resolution
  | [] => ⟨none, []⟩
  | path :: rest =>
    if isFile path then ⟨some path, [path]⟩
    else
      let later := firstFile isFile rest
      ⟨later.path, path :: later.asked⟩

end Resolution

/-- The first candidate for a specifier that is a file. -/
def AliasTable.resolve (table : AliasTable) (isFile : String → Bool) (specifier : String) :
    Resolution :=
  Resolution.firstFile isFile (table.candidates specifier)

end StagedBuild
