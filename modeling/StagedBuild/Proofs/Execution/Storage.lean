import StagedBuild.Proofs.Execution.ArtifactPath
import StagedBuild.Proofs.Execution.Results
import StagedBuild.Proofs.Json.RoundTrip

/-!
# Where artifacts are stored

The file of an artifact is found by the names in its output, below the output directory. Outputs are
taken over from the settings as they are, so two targets share a file exactly when the settings give
them the same names, and then only one of the artifacts is left.

## Main definitions

* `Artifact.StoredIn`: the artifact is what its file holds.

## Main results

* `Artifact.keepsBut_store`: storing an artifact changes no other file.
* `Artifact.exists_storedIn_of_accepts`: each place holds one of the artifacts that go there.

The last theorem says which builds leave one file for each target.
-/

namespace StagedBuild

namespace Artifact

/-- The artifact is what is read at its path. -/
def StoredIn (artifact : Artifact) (directory : String) (tree : FileTree) : Prop :=
  ∃ path, artifact.pathIn? directory = .ok path ∧ tree.read path = .ok (Document.pretty artifact)

variable {artifact other : Artifact} {artifacts : List Artifact} {directory : String}
  {tree later : FileTree}

-- ════════════════════════════════════════════════════════════════════════
-- Storing one artifact
-- ════════════════════════════════════════════════════════════════════════

/-- Whether it succeeds or fails, storing an artifact can only change the file at its place. -/
theorem keepsBut_store (directory : String) (tree : FileTree) (artifact : Artifact) :
    FileTree.KeepsBut [tree.destination directory ++ artifact.place] tree
      (artifact.store directory tree).1 := by
  rw [store]
  split
  · exact .refl _ tree
  · next path hpath =>
    have hmade := tree.keepsBut_ensureDirectory (Path.parent path)
    split
    · next made cause hensure =>
      rw [hensure] at hmade
      exact hmade.mono (List.nil_subset _)
    · next made hensure =>
      rw [hensure] at hmade
      split
      · exact hmade.mono (List.nil_subset _)
      · next later hwrite =>
        have hwritten := FileTree.keepsBut_write hwrite
        rw [hmade.destination_eq, destination_of_pathIn? hpath] at hwritten
        exact (hmade.mono (List.nil_subset _)).trans hwritten

theorem storedIn_of_store (h : artifact.store directory tree = (later, .ok ())) :
    artifact.StoredIn directory later := by
  rw [store] at h
  split at h
  · cases h
  · next path hpath =>
    split at h
    · cases h
    · split at h
      · cases h
      · next written hwrite =>
        obtain rfl : written = later := (Prod.mk.inj h).1
        exact ⟨path, hpath, FileTree.read_of_write hwrite⟩

theorem StoredIn.of_keepsBut {replaced : List (List String)} (h : artifact.StoredIn directory tree)
    (hkeeps : FileTree.KeepsBut replaced tree later)
    (hplace : tree.destination directory ++ artifact.place ∉ replaced) :
    artifact.StoredIn directory later := by
  obtain ⟨path, hpath, hread⟩ := h
  refine ⟨path, hpath, hkeeps.read ?_ hread⟩
  rwa [destination_of_pathIn? hpath]

/-- A file holds one artifact only. -/
theorem StoredIn.eq_of_place (h : artifact.StoredIn directory tree)
    (hother : other.StoredIn directory tree) (hplace : artifact.place = other.place) :
    artifact = other := by
  obtain ⟨path, hpath, hread⟩ := h
  obtain ⟨otherPath, hotherPath, hotherRead⟩ := hother
  obtain ⟨location, hlocate, hnode⟩ := FileTree.read_eq_ok_iff.1 hread
  obtain ⟨otherLocation, hotherLocate, hotherNode⟩ := FileTree.read_eq_ok_iff.1 hotherRead
  obtain rfl := (located_inj hpath hotherPath hlocate hotherLocate).2 hplace
  rw [hnode] at hotherNode
  have htext : Document.pretty artifact = Document.pretty other :=
    FileNode.file.inj (Option.some.inj hotherNode)
  exact (Document.exact_artifact.roundTrips (by decide)).eq_of_pretty_eq htext

-- ════════════════════════════════════════════════════════════════════════
-- Storing artifacts one after the other
-- ════════════════════════════════════════════════════════════════════════

theorem store_of_storeSink (h : storeSink directory tree artifact = (later, .ok ())) :
    artifact.store directory tree = (later, .ok ()) := by
  rw [storeSink] at h
  rcases hstore : artifact.store directory tree with ⟨stored, failure | ⟨⟩⟩
  · rw [hstore] at h
    cases h
  · rw [hstore] at h
    rw [(Prod.mk.inj h).1]

theorem keepsBut_of_accepts {before after : FileTree}
    (h : (storeSink directory).Accepts before artifacts after) :
    FileTree.KeepsBut (artifacts.map (before.destination directory ++ ·.place)) before after := by
  induction h with
  | nil tree => exact .refl _ tree
  | @cons tree next last artifact rest head _ ih =>
    have hstored := keepsBut_store directory tree artifact
    rw [store_of_storeSink head] at hstored
    rw [hstored.destination_eq] at ih
    rw [List.map_cons]
    exact (hstored.mono (by simp)).trans (ih.mono (List.subset_cons_self _ _))

theorem exists_storedIn_of_accepts {before after : FileTree}
    (h : (storeSink directory).Accepts before artifacts after) (hmem : artifact ∈ artifacts) :
    ∃ stored ∈ artifacts, stored.place = artifact.place ∧ stored.StoredIn directory after := by
  induction h generalizing artifact with
  | nil tree => simp at hmem
  | @cons tree next last first rest head tail ih =>
    by_cases hlater : ∃ later ∈ rest, later.place = artifact.place
    · obtain ⟨later, hlaterMem, hplace⟩ := hlater
      obtain ⟨stored, hstoredMem, hstored, hin⟩ := ih hlaterMem
      exact ⟨stored, List.mem_cons_of_mem first hstoredMem, hstored.trans hplace, hin⟩
    · -- nothing that follows goes to this place, so it is the first artifact's and stays so
      have hnot : ∀ later ∈ rest, later.place ≠ artifact.place := by simpa using hlater
      obtain rfl : artifact = first :=
        (List.mem_cons.1 hmem).resolve_right fun hrest => hnot artifact hrest rfl
      refine ⟨artifact, List.mem_cons_self, rfl, ?_⟩
      apply (storedIn_of_store (store_of_storeSink head)).of_keepsBut (keepsBut_of_accepts tail)
      intro hreplaced
      obtain ⟨later, hlaterMem, heq⟩ := List.mem_map.1 hreplaced
      exact hnot later hlaterMem (List.append_cancel_left heq)

/-- Artifacts that differ are all stored exactly when no two of them have the same place. -/
theorem forall_storedIn_iff {before after : FileTree}
    (h : (storeSink directory).Accepts before artifacts after) (hnodup : artifacts.Nodup) :
    (∀ artifact ∈ artifacts, artifact.StoredIn directory after) ↔
      artifacts.Pairwise fun a b => a.place ≠ b.place := by
  constructor
  · intro hstored
    apply hnodup.imp_of_mem
    intro a b ha hb hne hplace
    exact hne ((hstored a ha).eq_of_place (hstored b hb) hplace)
  · intro hplaces artifact hmem
    obtain ⟨stored, hstoredMem, hplace, hstored⟩ := exists_storedIn_of_accepts h hmem
    have hinj := List.inj_on_of_nodup_map (List.pairwise_map.2 hplaces)
    rwa [hinj hstoredMem hmem hplace] at hstored

end Artifact

-- ════════════════════════════════════════════════════════════════════════
-- The files of a build
-- ════════════════════════════════════════════════════════════════════════

/-- A build that succeeds has one artifact for each requested target, named by the output that the
settings have for it or else by the target. Below any directory that takes them, the paths of two of
its artifacts are different texts exactly when these names are, and lead to different files exactly
when the names lead to different places. So storing all artifacts, if none of them is refused on the
way, leaves every one of them in its file exactly when their places are different; nothing else makes
one overwrite another. -/
theorem storedIn_iff_places_differ [PatternCompiler] {σ : Type} {settings : Settings}
    {stages : List StageId} {env : Environment} {request : Option (List String)} {plan : Plan}
    {registry : Registry} {sink : Sink σ} {state : σ} {artifacts : List Artifact}
    (hplan : settings.planRequested stages env request = .ok plan)
    (hrun : (plan.execute registry.run sink state).result = .ok artifacts) :
    (∃ targets, Settings.requestedTargets request = .ok targets ∧
      artifacts.map (fun artifact => (artifact.target, artifact.stem)) =
        (Target.all.filter (· ∈ targets)).map fun target =>
          (target, ((settings.entries.get? target).map (·.output)).getD target.name)) ∧
    ∀ directory,
      (∀ a ∈ artifacts, ∀ b ∈ artifacts, ∀ path otherPath,
        a.pathIn? directory = .ok path → b.pathIn? directory = .ok otherPath →
        (path ≠ otherPath ↔ a.stem ≠ b.stem) ∧
        ∀ tree location otherLocation, FileTree.locate tree path = .ok location →
          FileTree.locate tree otherPath = .ok otherLocation →
          (location ≠ otherLocation ↔ a.place ≠ b.place)) ∧
      ∀ tree, let emission := (Artifact.storeSink directory).emit tree artifacts
        emission.refused = none →
        ((∀ artifact ∈ artifacts, artifact.StoredIn directory emission.state) ↔
          artifacts.Pairwise fun a b => a.place ≠ b.place) := by
  obtain ⟨targets, htargets, hartifacts⟩ := Settings.artifacts_of_build hplan hrun
  have hnodup : artifacts.Nodup := by
    have hfirst := congrArg (List.map Prod.fst) hartifacts
    have hmap : artifacts.map (·.target) = Target.all.filter (· ∈ targets) := by
      simpa [Function.comp_def] using hfirst
    have hall : (Target.all.filter (· ∈ targets)).Nodup := List.Nodup.filter _ (by decide)
    rw [← hmap] at hall
    exact hall.of_map
  have hstems := congrArg (List.map fun (target, output) => (target, output.getD target.name))
    hartifacts
  refine ⟨⟨targets, htargets, ?_⟩, ?_⟩
  · simpa [Artifact.stem, Function.comp_def] using hstems
  · intro directory
    constructor
    · intro a _ b _ path otherPath hpath hotherPath
      refine ⟨(Artifact.pathIn?_inj hpath hotherPath).not, ?_⟩
      intro tree location otherLocation hlocate hotherLocate
      exact (Artifact.located_inj hpath hotherPath hlocate hotherLocate).not
    · intro tree emission hnone
      exact Artifact.forall_storedIn_iff (Sink.accepts_of_emit hnone) hnodup

-- builds of three targets whose stages leave the graph as it is

/-- Every stage has a transform that changes nothing. -/
def idleRegistry : Registry := fun _ => some fun _ graph => { result := .ok graph }

def production : Environment := ⟨.production, false, false, false⟩

/-- A project whose client and server get the given outputs. -/
def twoOutputs (client server : String) : Settings :=
  { Settings.forRoot "/app" with
    entries := { client := some ⟨"a.js", client⟩, server := some ⟨"b.js", server⟩ } }

def twoArtifacts (client server : String) : List Artifact := [
  ⟨.client, some client, .ofEntry "a.js"⟩,
  ⟨.server, some server, .ofEntry "b.js"⟩,
  ⟨.serviceWorker, none, .ofEntry ""⟩]

theorem twoOutputs_plan (client server : String) :
    (twoOutputs client server).planRequested StageId.all production none =
      .ok ((twoOutputs client server).sharedPlan StageId.all production Target.all) := by
  have hsound : AliasTable.Sound (twoOutputs client server).aliasNames := by
    change AliasTable.Sound (Settings.forRoot "/app").aliasNames
    exact ⟨by decide +kernel, by decide +kernel⟩
  have hnamespace : DiagnosticFilter.Searchable (Settings.forRoot "/app").frameworkNamespace := by
    decide +kernel
  exact Settings.planTargets_of_sound hsound hnamespace Target.all

theorem twoOutputs_run (client server : String) :
    (((twoOutputs client server).sharedPlan StageId.all production Target.all).execute
      idleRegistry.run (fun _ _ => ((), .ok ())) ()).result = .ok (twoArtifacts client server) :=
  rfl

/-- What storing the artifacts in an empty project leads to. -/
def twoEmission (client server : String) : Emission FileTree :=
  (Artifact.storeSink "out").emit (.standingAt ["app"]) (twoArtifacts client server)

/-- Two outputs below one directory stay apart; two spellings of one name do not. -/
theorem twoOutputs_storedIn :
    (twoEmission "build/client" "build/server").refused = none ∧
    (∀ artifact ∈ twoArtifacts "build/client" "build/server",
      artifact.StoredIn "out" (twoEmission "build/client" "build/server").state) ∧
    (twoEmission "bundle" "./bundle").refused = none ∧
    ¬ ∀ artifact ∈ twoArtifacts "bundle" "./bundle",
      artifact.StoredIn "out" (twoEmission "bundle" "./bundle").state := by
  obtain ⟨-, happart⟩ := storedIn_iff_places_differ (twoOutputs_plan "build/client" "build/server")
    (twoOutputs_run "build/client" "build/server")
  obtain ⟨-, htogether⟩ := storedIn_iff_places_differ (twoOutputs_plan "bundle" "./bundle")
    (twoOutputs_run "bundle" "./bundle")
  have hnone : (twoEmission "build/client" "build/server").refused = none := by decide +kernel
  have hnone' : (twoEmission "bundle" "./bundle").refused = none := by decide +kernel
  refine ⟨hnone, ((happart "out").2 _ hnone).2 (by decide +kernel), hnone', ?_⟩
  intro hstored
  have hplaces := ((htogether "out").2 _ hnone').1 hstored
  exact absurd hplaces (by decide +kernel)

-- places that differ are no promise that nothing is refused: one file may stand where another needs
-- a directory
example : (twoEmission "a" "a.json/b").refused ≠ none := by decide +kernel

theorem not_forall_paths_differ :
    ¬ ∀ (settings : Settings) (env : Environment) (request : Option (List String)) (plan : Plan)
      (registry : Registry) (artifacts : List Artifact),
      settings.planRequested StageId.all env request = .ok plan →
      (plan.execute registry.run (fun _ _ => ((), .ok ())) ()).result = .ok artifacts →
      ∀ directory, ∀ a ∈ artifacts, ∀ b ∈ artifacts, a.target ≠ b.target → ∀ path otherPath,
        a.pathIn? directory = .ok path → b.pathIn? directory = .ok otherPath →
        path ≠ otherPath := by
  intro h
  have hdiffer := h _ _ _ _ _ _ (twoOutputs_plan "bundle" "bundle") (twoOutputs_run "bundle" "bundle")
    "out" ⟨.client, some "bundle", .ofEntry "a.js"⟩ (by simp [twoArtifacts])
    ⟨.server, some "bundle", .ofEntry "b.js"⟩ (by simp [twoArtifacts]) (by decide)
  exact hdiffer "out/bundle.json" "out/bundle.json" rfl rfl rfl

end StagedBuild
