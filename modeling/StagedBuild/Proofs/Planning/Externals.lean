import StagedBuild.Proofs.Collections
import StagedBuild.Proofs.Json.RoundTrip
import StagedBuild.Proofs.Planning.Outcome
import StagedBuild.Proofs.Text.Order

/-!
# The external modules of a plan

The server leaves out what the project declares and what the runtime provides, and nothing else. The
other targets leave nothing out. A plan holds this set in each of its pipelines, and its text shows
the set where it is not empty.

## Main definitions

* `Json.at?`: the value at a path of member names.
* `Externals.ofLists`: the external modules of a target from two lists of names.

## Main results

* `Externals.mem_forTarget_iff`: what the bundle of a target leaves out.
* `Pipeline.member?_externals`: where a pipeline is written with its external modules.
* `Externals.forTarget_exact_union`: the set as a function of the listed names, and in plans.
-/

namespace StagedBuild

-- ════════════════════════════════════════════════════════════════════════
-- Members of written documents
-- ════════════════════════════════════════════════════════════════════════

namespace Json

def member? (name : String) : Json → Option Json
  | .object members => members.lookup name
  | _ => none

/-- The value that is reached through the named members, from the outermost object on. -/
def at? (json : Json) (path : List String) : Option Json :=
  path.foldlM (fun json name => json.member? name) json

end Json

/-- A map is written with a member for each target that has a value. -/
theorem TargetMap.member?_toJson {α : Type} [Document α] (map : TargetMap α) (target : Target) :
    (Document.toJson map).member? target.name = (map.get? target).map Document.toJson := by
  obtain ⟨client, server, serviceWorker⟩ := map
  cases client <;> cases server <;> cases serviceWorker <;> cases target <;> rfl

theorem Pipeline.member?_externals (pipeline : Pipeline) :
    (Document.toJson pipeline).member? "external_dependencies" =
      if pipeline.externals.names = [] then none
      else some (.array (pipeline.externals.names.map .string)) := by
  have hempty : pipeline.externals.isEmpty = true ↔ pipeline.externals.names = [] :=
    List.isEmpty_iff
  simp only [Document.toJson, Json.member?, hempty]
  cases pipeline.entry <;> split <;> rfl

namespace Plan

variable {plan : Plan} {target : Target} {pipeline : Pipeline}

theorem at?_externals (h : plan.pipelines.get? target = some pipeline) :
    (Document.toJson plan).at? ["pipelines", target.name, "external_dependencies"] =
      if pipeline.externals.names = [] then none
      else some (.array (pipeline.externals.names.map .string)) := by
  have hpipelines : (Document.toJson plan).member? "pipelines" =
      some (Document.toJson plan.pipelines) := rfl
  have hpipeline := plan.pipelines.member?_toJson target
  rw [h, Option.map_some] at hpipeline
  simp [Json.at?, hpipelines, hpipeline, pipeline.member?_externals]

/-- Both texts of a plan spell the value that the plan is written as. -/
theorem parse?_written {text : String}
    (h : text = Document.text plan ∨ text = Document.pretty plan) :
    Json.parse? text = some (Document.toJson plan) := by
  have hfaithful := Document.exact_plan.faithful plan
  rcases h with rfl | rfl
  · exact Json.parse?_compact hfaithful (by decide)
  · exact Json.parse?_pretty hfaithful (by decide)

end Plan

-- ════════════════════════════════════════════════════════════════════════
-- The union
-- ════════════════════════════════════════════════════════════════════════

namespace Externals

theorem mem_forTarget_iff {builtins : HostBuiltins} {declared : NameSet} {target : Target}
    {name : String} : name ∈ forTarget builtins declared target ↔
      target = .server ∧ (name ∈ declared ∨ name ∈ builtins.names) := by
  cases target with
  | server => simp [forTarget, areLeftOutFor, names, NameSet.mem_union]
  | client => simp [forTarget, areLeftOutFor, NameSet.notMem_empty]
  | serviceWorker => simp [forTarget, areLeftOutFor, NameSet.notMem_empty]

/-- The modules that the bundle of a target leaves out, from those that the runtime provides and those
that the project declares as they are listed. -/
def ofLists (runtime version : String) (provided declared : List String) (target : Target) : NameSet :=
  forTarget ⟨runtime, version, .ofList provided⟩ (.ofList declared) target

theorem mem_ofLists_iff {runtime version : String} {provided declared : List String}
    {target : Target} {name : String} : name ∈ ofLists runtime version provided declared target ↔
      target = .server ∧ (name ∈ declared ∨ name ∈ provided) := by
  rw [ofLists, mem_forTarget_iff, NameSet.mem_ofList, NameSet.mem_ofList]

/-- The pipeline of a target has the target's external modules. -/
theorem externals_of_planRequested [PatternCompiler] {settings : Settings} {stages : List StageId}
    {env : Environment} {request : Option (List String)} {plan : Plan} {target : Target}
    {pipeline : Pipeline} (h : settings.planRequested stages env request = .ok plan)
    (hget : plan.pipelines.get? target = some pipeline) :
    pipeline.externals = forTarget settings.hostBuiltins settings.declared target := by
  rw [Settings.pipeline_of_planRequested h hget]
  rfl

/-- For listed modules that the runtime provides and listed ones that the project declares, the
server leaves out those that are in either list, each once and in the order of their code points,
which is that of their bytes. The other targets leave out none. So order and repetition in the lists
do not matter, with more in either list no less is left out, and declaring what the runtime provides
changes nothing. In every plan the pipeline of a target has this set, and in both texts of the plan
the pipeline has a member for it exactly when it is not empty. -/
theorem forTarget_exact_union [PatternCompiler] (runtime version : String) :
    (∀ provided declared,
      (ofLists runtime version provided declared .server).names.Pairwise
        (fun a b => Text.codePoints a < Text.codePoints b) ∧
      (ofLists runtime version provided declared .server).names.Pairwise
        (fun a b => Text.bytes a < Text.bytes b) ∧
      (∀ name, name ∈ (ofLists runtime version provided declared .server).names ↔
        name ∈ declared ∨ name ∈ provided) ∧
      (ofLists runtime version provided declared .client).names = [] ∧
      (ofLists runtime version provided declared .serviceWorker).names = []) ∧
    (∀ provided otherProvided declared otherDeclared,
      (∀ name, name ∈ otherProvided ↔ name ∈ provided) →
      (∀ name, name ∈ otherDeclared ↔ name ∈ declared) →
      ∀ target, ofLists runtime version otherProvided otherDeclared target =
        ofLists runtime version provided declared target) ∧
    (∀ provided moreProvided declared moreDeclared,
      provided ⊆ moreProvided → declared ⊆ moreDeclared →
      ∀ target, (ofLists runtime version provided declared target).names ⊆
        (ofLists runtime version moreProvided moreDeclared target).names) ∧
    (∀ provided declared, ∀ name ∈ provided,
      ∀ target, ofLists runtime version provided (name :: declared) target =
        ofLists runtime version provided declared target) ∧
    ∀ (settings : Settings) (stages : List StageId) (env : Environment)
      (request : Option (List String)) (plan : Plan),
      settings.planRequested stages env request = .ok plan →
      ∀ target pipeline, plan.pipelines.get? target = some pipeline →
        pipeline.externals = forTarget settings.hostBuiltins settings.declared target ∧
        ∀ text, text = Document.text plan ∨ text = Document.pretty plan →
          ∃ json, Json.parse? text = some json ∧
            json.at? ["pipelines", target.name, "external_dependencies"] =
              if pipeline.externals.names = [] then none
              else some (.array (pipeline.externals.names.map .string)) := by
  refine ⟨?_, ?_, ?_, ?_, ?_⟩
  · intro provided declared
    have hincreasing := (ofLists runtime version provided declared .server).increasing
    refine ⟨?_, ?_, ?_, rfl, rfl⟩
    · exact hincreasing.imp Text.lt_iff_codePoints.1
    · exact hincreasing.imp Text.lt_iff_bytes.1
    · intro name
      exact mem_ofLists_iff.trans (and_iff_right rfl)
  · intro provided otherProvided declared otherDeclared hprovided hdeclared target
    apply NameSet.ext_mem
    intro name
    rw [mem_ofLists_iff, mem_ofLists_iff, hprovided, hdeclared]
  · intro provided moreProvided declared moreDeclared hprovided hdeclared target name hname
    obtain ⟨htarget, hlisted⟩ := mem_ofLists_iff.1 hname
    exact mem_ofLists_iff.2 ⟨htarget, hlisted.imp (@hdeclared name) (@hprovided name)⟩
  · intro provided declared name hname target
    apply NameSet.ext_mem
    intro other
    rw [mem_ofLists_iff, mem_ofLists_iff, List.mem_cons]
    refine and_congr_right fun _ => ⟨?_, fun h => h.imp_left .inr⟩
    rintro ((rfl | hdeclared) | hprovided)
    · exact .inr hname
    · exact .inl hdeclared
    · exact .inr hprovided
  · intro settings stages env request plan hplan target pipeline hget
    refine ⟨externals_of_planRequested hplan hget, ?_⟩
    intro text htext
    exact ⟨_, Plan.parse?_written htext, Plan.at?_externals hget⟩

-- a runtime that lists a module twice, and a project that declares one of its modules too

def overlapping : Settings :=
  { Settings.forRoot "/app" with
    declared := .ofList ["left-pad", "fs"]
    hostBuiltins := ⟨"node", "test", .ofList ["path", "fs", "path"]⟩ }

theorem forTarget_overlapping :
    (∀ name, name ∈ (forTarget overlapping.hostBuiltins overlapping.declared .server).names ↔
      name ∈ ["left-pad", "fs"] ∨ name ∈ ["path", "fs", "path"]) ∧
    forTarget overlapping.hostBuiltins overlapping.declared .server =
      forTarget ⟨"node", "test", .ofList ["fs", "path"]⟩ (.ofList ["left-pad"]) .server ∧
    ∃ plan, overlapping.planRequested Schedule.defaultStages ⟨.production, false, true, false⟩
        (some ["server", "client"]) = .ok plan ∧
      (∃ json, Json.parse? (Document.pretty plan) = some json ∧
        json.at? ["pipelines", "server", "external_dependencies"] =
          some (.array [.string "fs", .string "left-pad", .string "path"])) ∧
      ∃ json, Json.parse? (Document.text plan) = some json ∧
        json.at? ["pipelines", "client", "external_dependencies"] = none := by
  obtain ⟨hexact, hcongr, -, hoverlap, hplans⟩ := forTarget_exact_union "node" "test"
  obtain ⟨-, -, hmem, -⟩ := hexact ["path", "fs", "path"] ["left-pad", "fs"]
  have hswapped := hcongr ["fs", "path"] ["path", "fs", "path"] ["fs", "left-pad"]
    ["left-pad", "fs"] (by simp) (by simp [or_comm]) .server
  have hfs := hoverlap ["fs", "path"] ["left-pad"] "fs" (by simp) .server
  have htargets : Settings.requestedTargets (some ["server", "client"]) =
      .ok [.server, .client] := by rfl
  have hplan : overlapping.planRequested Schedule.defaultStages ⟨.production, false, true, false⟩
      (some ["server", "client"]) = .ok _ :=
    (Settings.planRequested_of_targets htargets).trans
      (Settings.planTargets_of_sound ⟨by decide +kernel, by decide +kernel⟩ (by decide +kernel) _)
  obtain ⟨-, hserver⟩ := hplans _ _ _ _ _ hplan .server _ rfl
  obtain ⟨-, hclient⟩ := hplans _ _ _ _ _ hplan .client _ rfl
  obtain ⟨server, hparsed, hshown⟩ := hserver _ (.inr rfl)
  obtain ⟨client, hread, hhidden⟩ := hclient _ (.inl rfl)
  refine ⟨hmem, hswapped.trans hfs, _, hplan, ⟨server, hparsed, hshown.trans ?_⟩, client, hread,
    hhidden.trans ?_⟩
  · rfl
  · rfl

end Externals
end StagedBuild
