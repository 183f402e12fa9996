import StagedBuild.Execution.Store
import StagedBuild.Proofs.FileTree.Changes

/-!
# The path of an artifact

What leads outside is looked for in the stem, and the path is made from the stem with its ending. The
ending can neither make a stem absolute nor complete a step up, so what is looked for is not in the file
name either. It goes down from the output directory part by part, wherever that is.

## Main definitions

* `Artifact.place`: the names that lead from the output directory to the file.

## Main results

* `isAbsolute_fileName`, `notMem_parts_fileName`: what the ending does not change.
* `Artifact.pathIn?_inj`: different stems have different paths.
* `Artifact.destination_of_pathIn?`: the file of an artifact is at its place.

The last theorem says which outputs are refused, and where the paths of all others lead.
-/

namespace StagedBuild

-- ════════════════════════════════════════════════════════════════════════
-- Names of files
-- ════════════════════════════════════════════════════════════════════════

section FileName

variable {name : String}

theorem leadsOutside_iff : leadsOutside name = true ↔
    Path.isAbsolute name = true ∨ ".." ∈ Path.parts name := by
  simp [leadsOutside]

theorem leadsOutside_name (target : Target) : leadsOutside target.name = false := by
  cases target <;> decide

theorem isAbsolute_fileName (h : leadsOutside name = false) :
    Path.isAbsolute (name ++ ".json") = false := by
  by_cases hempty : name = ""
  · rw [hempty]
    decide
  · rw [Path.isAbsolute_append hempty]
    exact (Bool.or_eq_false_iff.1 h).1

/-- The ending makes no step up out of the last part of a name. -/
theorem notMem_parts_fileName (h : leadsOutside name = false) :
    ".." ∉ Path.parts (name ++ ".json") := by
  have hending : '/' ∉ ".json".toList := by decide
  obtain ⟨front, last, hname, hfile⟩ := Path.parts_append_of_slashless hending name
  have hup : ".." ∉ Path.parts name := by simpa using (Bool.or_eq_false_iff.1 h).2
  rw [hname] at hup
  rw [hfile]
  intro hmem
  rcases List.mem_append.1 hmem with hfront | hlast
  · exact hup (List.mem_append_left _ hfront)
  · have hlength := congrArg String.length (List.mem_singleton.1 hlast)
    rw [String.length_append] at hlength
    have hdots : "..".length = 2 := rfl
    have hjson : ".json".length = 5 := rfl
    omega

end FileName

-- ════════════════════════════════════════════════════════════════════════
-- The place of an artifact
-- ════════════════════════════════════════════════════════════════════════

namespace Artifact

/-- The names that lead from the output directory to the file. -/
def place (artifact : Artifact) : List String :=
  Path.names (artifact.stem ++ ".json")

variable {artifact other : Artifact} {directory path otherPath : String} {tree : FileTree}

theorem leadsOutside_stem_iff : leadsOutside artifact.stem = true ↔
    ∃ output, artifact.output = some output ∧
      (Path.isAbsolute output = true ∨ ".." ∈ Path.parts output) := by
  rw [stem]
  cases artifact.output with
  | none => simp [leadsOutside_name]
  | some output => simp [leadsOutside_iff]

theorem pathIn?_eq_error_iff {failure : StoreFailure} :
    artifact.pathIn? directory = .error failure ↔
      leadsOutside artifact.stem = true ∧
        failure = .outside artifact.stem artifact.target directory := by
  rw [pathIn?]
  cases leadsOutside artifact.stem <;> simp [eq_comm]

theorem pathIn?_eq_ok_iff : artifact.pathIn? directory = .ok path ↔
    leadsOutside artifact.stem = false ∧
      path = Path.join directory (artifact.stem ++ ".json") := by
  rw [pathIn?]
  cases leadsOutside artifact.stem <;> simp [eq_comm]

theorem pathIn?_inj (h : artifact.pathIn? directory = .ok path)
    (hother : other.pathIn? directory = .ok otherPath) :
    path = otherPath ↔ artifact.stem = other.stem := by
  obtain ⟨hinside, rfl⟩ := pathIn?_eq_ok_iff.1 h
  obtain ⟨hotherInside, rfl⟩ := pathIn?_eq_ok_iff.1 hother
  rw [Path.join_inj (isAbsolute_fileName hinside) (isAbsolute_fileName hotherInside),
    String.append_left_inj]

theorem destination_of_pathIn? (h : artifact.pathIn? directory = .ok path) (tree : FileTree) :
    tree.destination path = tree.destination directory ++ artifact.place := by
  obtain ⟨hinside, rfl⟩ := pathIn?_eq_ok_iff.1 h
  exact tree.destination_join directory (isAbsolute_fileName hinside) (notMem_parts_fileName hinside)

theorem located_inj {location otherLocation : List String}
    (h : artifact.pathIn? directory = .ok path) (hother : other.pathIn? directory = .ok otherPath)
    (hlocate : tree.locate path = .ok location)
    (hotherLocate : tree.locate otherPath = .ok otherLocation) :
    location = otherLocation ↔ artifact.place = other.place := by
  rw [FileTree.eq_destination_of_locate hlocate, FileTree.eq_destination_of_locate hotherLocate,
    destination_of_pathIn? h, destination_of_pathIn? hother, List.append_right_inj]

/-- An output is refused exactly if it is given and is absolute or goes up at some part. Any other name
is written behind the directory as it is, with its ending, after a slash where one is needed. This file
name is not absolute and goes up nowhere, so the path leads to a place below the directory, and no part
of it leads out of there on the way. Different names have different paths. -/
theorem pathIn?_stays_below (directory : String) :
    (∀ (artifact : Artifact) (failure : StoreFailure),
      artifact.pathIn? directory = .error failure ↔
        (∃ output, artifact.output = some output ∧
          (Path.isAbsolute output = true ∨ ".." ∈ Path.parts output)) ∧
        failure = .outside artifact.stem artifact.target directory) ∧
    (∀ (artifact : Artifact) (path : String), artifact.pathIn? directory = .ok path →
      let file := artifact.stem ++ ".json"
      path = Path.join directory file ∧
      path = (if directory = "" ∨ Path.endsInSlash directory = true then directory
        else directory ++ "/") ++ file ∧
      Path.isAbsolute file = false ∧ ".." ∉ Path.parts file ∧
      Path.isAbsolute path = Path.isAbsolute directory ∧
      ∀ tree : FileTree,
        tree.destination path = tree.destination directory ++ Path.names file ∧
        ∀ front, front <+: Path.parts file →
          tree.destination directory <+: FileTree.follow (tree.destination directory) front) ∧
    ∀ (artifact other : Artifact) (path otherPath : String),
      artifact.pathIn? directory = .ok path → other.pathIn? directory = .ok otherPath →
      artifact.stem ≠ other.stem → path ≠ otherPath := by
  refine ⟨?_, ?_, ?_⟩
  · intro artifact failure
    rw [pathIn?_eq_error_iff, leadsOutside_stem_iff]
  · intro artifact path hpath file
    obtain ⟨hinside, hjoin⟩ := pathIn?_eq_ok_iff.1 hpath
    have hrelative : Path.isAbsolute file = false := isAbsolute_fileName hinside
    have hup : ".." ∉ Path.parts file := notMem_parts_fileName hinside
    refine ⟨hjoin, ?_, hrelative, hup, ?_, ?_⟩
    · rw [hjoin, Path.join_eq_ite hrelative]
    · rw [hjoin, Path.isAbsolute_join hrelative]
    · intro tree
      refine ⟨destination_of_pathIn? hpath tree, ?_⟩
      intro front hfront
      exact FileTree.prefix_follow _ fun hmem => hup (hfront.subset hmem)
  · intro artifact other path otherPath hpath hother hne
    exact fun heq => hne ((pathIn?_inj hpath hother).1 heq)

-- outputs with empty parts, lone dots, and slashes in front and at the end

def bundleAs (output : String) : Artifact :=
  ⟨.client, some output, .ofEntry ""⟩

/-- Dots and slashes stay as they are. A part that only begins with two dots is no step up. -/
theorem bundleAs_paths :
    (bundleAs "").pathIn? "out" = .ok "out/.json" ∧
    (bundleAs "a/./b//").pathIn? "out/" = .ok "out/a/./b//.json" ∧
    (bundleAs "..a/.").pathIn? "" = .ok "..a/..json" ∧
    ".." ∉ Path.parts "..a/..json" ∧
    (∀ tree : FileTree, tree.destination "out/a/./b//.json" =
      tree.destination "out/" ++ ["a", "b", ".json"]) ∧
    "out/.json" ≠ "out/..json" ∧
    (bundleAs "a/..").pathIn? "out" = .error (.outside "a/.." .client "out") ∧
    (bundleAs "/a").pathIn? "out" = .error (.outside "/a" .client "out") := by
  obtain ⟨hrefused, haccepted, hdiffer⟩ := pathIn?_stays_below "out"
  obtain ⟨-, hnested, -⟩ := pathIn?_stays_below "out/"
  obtain ⟨-, hhere, -⟩ := pathIn?_stays_below ""
  have hplain : (bundleAs "").pathIn? "out" = .ok "out/.json" :=
    pathIn?_eq_ok_iff.2 (by decide +kernel)
  have hdot : (bundleAs ".").pathIn? "out" = .ok "out/..json" :=
    pathIn?_eq_ok_iff.2 (by decide +kernel)
  have hslashes : (bundleAs "a/./b//").pathIn? "out/" = .ok "out/a/./b//.json" :=
    pathIn?_eq_ok_iff.2 (by decide +kernel)
  have hdots : (bundleAs "..a/.").pathIn? "" = .ok "..a/..json" :=
    pathIn?_eq_ok_iff.2 (by decide +kernel)
  obtain ⟨-, -, -, hup, -⟩ := hhere _ _ hdots
  obtain ⟨-, -, -, -, -, hplace⟩ := hnested _ _ hslashes
  refine ⟨hplain, hslashes, hdots, hup, fun tree => (hplace tree).1,
    hdiffer _ _ _ _ hplain hdot (by decide), ?_, ?_⟩
  · exact (hrefused _ _).2 ⟨⟨"a/..", rfl, by decide +kernel⟩, rfl⟩
  · exact (hrefused _ _).2 ⟨⟨"/a", rfl, by decide +kernel⟩, rfl⟩

end Artifact
end StagedBuild
