import StagedBuild.Execution.Artifact
import StagedBuild.Plan
import StagedBuild.Proofs.Json.Codec

/-!
# Every document is read back

Each type whose values are exchanged is exact: keywords because their names tell them apart, records
because their members are fields with different names, and whatever a record leaves out is what the
reader puts there. A plan is the deepest document, with eight containers inside one another.

## Main results

* `StageOptions.ofFields?_members`: the members of options give the options back.
* `Document.exact_stageOptions`, `Document.exact_pipeline`, `Document.exact_plan`: the nested types.
* `Document.documents_roundTrip`: both texts of every document are read as that document.
-/

namespace StagedBuild

-- ════════════════════════════════════════════════════════════════════════
-- Keywords and flat records
-- ════════════════════════════════════════════════════════════════════════

namespace Document

theorem exact_mode : Exact Mode 0 :=
  exact_of_keyword (fun _ => rfl) (fun _ => rfl) Mode.ofName?_name

theorem exact_target : Exact Target 0 :=
  exact_of_keyword (fun _ => rfl) (fun _ => rfl) Target.ofName?_name

theorem exact_stageId : Exact StageId 0 :=
  exact_of_keyword (fun _ => rfl) (fun _ => rfl) StageId.ofKey?_key

theorem exact_environment : Exact Environment 1 := by
  apply exact_of_fields (fun _ => rfl) (fun _ => rfl) (by decide)
  case hnames => exact fun _ => .refl _
  case hfaithful => simp [exact_mode.faithful, Json.Faithful.bool]
  case hbuild =>
    simp [Fields.required, Fields.withDefault, List.lookup_cons, Json.bool?, exact_mode.ofJson?_toJson]

/-- A record of two texts. -/
theorem exact_of_two_texts {α : Type} [Document α] {first second : String} {left right : α → String}
    {make : String → String → α} (hne : first ≠ second)
    (htoJson : ∀ value : α,
      toJson value = .object [(first, .string (left value)), (second, .string (right value))])
    (hofJson? : ∀ json : Json, ofJson? json =
      (json.fields? .json [first, second]).bind fun fields =>
        (fields.required first Json.string?).bind fun a =>
          (fields.required second Json.string?).bind fun b => some (make a b))
    (hmake : ∀ value, make (left value) (right value) = value) : Exact α 1 := by
  apply exact_of_fields htoJson hofJson? (by simpa using hne)
  case hnames => exact fun _ => .refl _
  case hfaithful => simp [Json.Faithful.string]
  case hbuild =>
    have hlookup : (second == first) = false := by simpa using hne.symm
    simp [Fields.required, List.lookup_cons, Json.string?, hlookup, hmake]

theorem exact_aliasEntry : Exact AliasEntry 1 :=
  exact_of_two_texts (by decide) (fun _ => rfl) (fun _ => rfl) fun _ => rfl

theorem exact_entryPoint : Exact EntryPoint 1 :=
  exact_of_two_texts (by decide) (fun _ => rfl) (fun _ => rfl) fun _ => rfl

theorem exact_diagnosticPolicy : Exact DiagnosticPolicy 1 :=
  exact_of_two_texts (by decide) (fun _ => rfl) (fun _ => rfl) fun _ => rfl

theorem exact_diagnostic : Exact Diagnostic 1 :=
  exact_of_two_texts (by decide) (fun _ => rfl) (fun _ => rfl) fun _ => rfl

end Document

-- ════════════════════════════════════════════════════════════════════════
-- Options of a stage
-- ════════════════════════════════════════════════════════════════════════

namespace StageOptions

open Document

theorem splitTag?_object {members : List (String × Json)} (tag : String)
    (h : ∀ member ∈ members, member.1 ≠ "type") :
    splitTag? (.object (("type", .string tag) :: members)) = some (tag, .object members) := by
  have htags : members.filter (fun member => member.1 = "type") = [] := by
    rw [List.filter_eq_nil_iff]
    intro member hmem
    simpa using h member hmem
  have hrest : members.filter (fun member => member.1 ≠ "type") = members := by
    rw [List.filter_eq_self]
    intro member hmem
    simpa using h member hmem
  simp only [splitTag?, List.filter_cons, htags, hrest]
  rfl

theorem ne_type_of_mem_members {options : StageOptions} {member : String × Json}
    (h : member ∈ options.members) : member.1 ≠ "type" := by
  revert member
  cases options with
  | moduleResolution browser dedupe => cases dedupe <;> simp [members]
  | _ => simp [members]

theorem faithful_members (options : StageOptions) :
    ∀ member ∈ options.members, Json.Faithful 2 member.2 := by
  have hstrings : ∀ strings : List String, Json.Faithful 2 (toJson strings) := fun strings =>
    exact_string.list.faithful_of_le strings (by decide)
  cases options with
  | aliasResolution entries extensions =>
    simp [members, exact_aliasEntry.list.faithful, hstrings]
  | envSubstitution replacements => simp [members, exact_string.nameMap.faithful_of_le]
  | moduleResolution browser dedupe =>
    cases dedupe <;> simp [members, Json.Faithful.bool, Json.Faithful.string]
  | legacyDownlevel options => simp [members, Json.Faithful.bool, Json.Faithful.string, hstrings]
  | _ => simp [members, Json.Faithful.bool, Json.Faithful.string]

/-- The members of options give the options back. -/
theorem ofFields?_members (options : StageOptions) :
    ofFields? options.stageId (.object options.members) = some options := by
  have hstrings := exact_string.list.ofJson?_toJson
  cases options with
  | aliasResolution entries extensions =>
    have hentries := exact_aliasEntry.list.ofJson?_toJson entries
    rw [stageId, ofFields?]
    apply Json.fields?_object_bind (by decide)
    · exact .refl _
    · simp [members, Fields.required, List.lookup_cons, hentries, hstrings]
  | envSubstitution replacements =>
    have hreplacements := exact_string.nameMap.ofJson?_toJson replacements
    rw [stageId, ofFields?]
    apply Json.fields?_object_bind (by decide)
    · exact .refl _
    · simp [members, Fields.required, hreplacements]
  | componentCompilation options =>
    have houtput : ComponentOutput.ofJson? (.string options.output.name) = some options.output :=
      ComponentOutput.ofName?_name options.output
    rw [stageId, ofFields?]
    apply Json.fields?_object_bind (by decide)
    · exact .refl _
    · simp [members, Fields.required, List.lookup_cons, Json.bool?, houtput]
  | moduleResolution browser dedupe =>
    rw [stageId, ofFields?]
    cases dedupe with
    | none =>
      apply Json.fields?_object_bind (by decide)
      · simp [members]
      · simp [members, Fields.required, Fields.optional, Fields.withDefault, List.lookup_cons,
          Json.bool?]
    | some package =>
      apply Json.fields?_object_bind (by decide)
      · simp [members]
      · simp [members, Fields.required, Fields.optional, Fields.withDefault, List.lookup_cons,
          Json.bool?, Json.option?, Json.string?]
  | interopNormalization => rfl
  | typedSource check =>
    rw [stageId, ofFields?]
    apply Json.fields?_object_bind (by decide)
    · exact .refl _
    · simp [members, Fields.required, Json.bool?]
  | legacyDownlevel options =>
    rw [stageId, ofFields?]
    apply Json.fields?_object_bind (by decide)
    · exact .refl _
    · simp [members, Fields.required, List.lookup_cons, Json.bool?, Json.string?, hstrings]
  | minification module =>
    rw [stageId, ofFields?]
    apply Json.fields?_object_bind (by decide)
    · exact .refl _
    · simp [members, Fields.required, Json.bool?]

end StageOptions

namespace Document

theorem faithful_stageOptions (options : StageOptions) : Json.Faithful 3 (toJson options) := by
  apply Json.Faithful.object
  intro member hmember
  rcases List.mem_cons.1 hmember with rfl | hmem
  · exact .string options.stageId.key
  · exact options.faithful_members member hmem

theorem exact_stageOptions : Exact StageOptions 3 where
  faithful := faithful_stageOptions
  ofJson?_toJson options := by
    have hsplit : StageOptions.splitTag? (toJson options) =
        some (options.stageId.key, .object options.members) :=
      StageOptions.splitTag?_object _ fun _ hmem => StageOptions.ne_type_of_mem_members hmem
    refine Option.bind_eq_some_iff.2 ⟨_, hsplit, ?_⟩
    refine Option.bind_eq_some_iff.2 ⟨_, StageId.ofKey?_key options.stageId, ?_⟩
    rw [if_pos (faithful_stageOptions options).isReadable, StageOptions.ofFields?_members]

-- ════════════════════════════════════════════════════════════════════════
-- Pipelines and plans
-- ════════════════════════════════════════════════════════════════════════

theorem exact_stage : Exact Stage 4 := by
  apply exact_of_fields (fun _ => rfl) (fun _ => rfl) (by decide)
  case hnames => exact fun _ => .refl _
  case hfaithful =>
    simp [exact_stageId.faithful_of_le, exact_word.faithful_of_le, exact_stageOptions.faithful]
  case hbuild =>
    simp [Fields.required, List.lookup_cons, exact_stageId.ofJson?_toJson, exact_word.ofJson?_toJson,
      exact_stageOptions.ofJson?_toJson]

theorem Exact.targetMap {α : Type} [Document α] {depth : Nat} (h : Exact α depth) :
    Exact (TargetMap α) (depth + 1) where
  faithful map := by
    apply Json.Faithful.object
    intro member hmember
    obtain ⟨entry, -, rfl⟩ := List.mem_map.1 hmember
    exact h.faithful entry.2
  ofJson?_toJson map := by
    have hmembers := Json.mapOf?_object Target.name h.ofJson?_toJson map.entries
    have htarget : ∀ entry : Target × α,
        (·, entry.2) <$> Target.ofName? entry.1.name = some entry := by
      intro entry
      rw [Target.ofName?_name, Option.map_eq_map, Option.map_some]
    have htargets : (map.entries.map fun entry => (entry.1.name, entry.2)).mapM
        (fun member => (·, member.2) <$> Target.ofName? member.1) = some map.entries := by
      rw [Traversal.mapM_map_of_forall htarget, List.map_id']
    refine Option.bind_eq_some_iff.2 ⟨_, hmembers, ?_⟩
    rw [htargets, Option.map_eq_map, Option.map_some, TargetMap.ofList_entries]

/-- A missing entry point is read as missing, and so is an empty set of external modules. -/
theorem exact_pipeline : Exact Pipeline 6 := by
  apply exact_of_fields (fun _ => rfl) (fun _ => rfl) (by decide)
  case hnames =>
    rintro ⟨target, entry, stages, externals, diagnostics⟩
    by_cases hexternals : externals.isEmpty = true <;> cases entry <;> simp [hexternals]
  case hfaithful =>
    rintro ⟨target, entry, stages, externals, diagnostics⟩
    by_cases hexternals : externals.isEmpty = true <;> cases entry <;>
      simp [hexternals, exact_target.faithful_of_le, exact_entryPoint.faithful_of_le,
        exact_stage.list.faithful, exact_nameSet.faithful_of_le,
        exact_diagnosticPolicy.faithful_of_le]
  case hbuild =>
    rintro ⟨target, entry, stages, externals, diagnostics⟩
    have hentry : ∀ entry : EntryPoint, Json.option? ofJson? (toJson entry) = some (some entry) :=
      fun entry => Json.option?_of_some rfl (exact_entryPoint.ofJson?_toJson entry)
    by_cases hexternals : externals.isEmpty = true
    · obtain rfl := NameSet.isEmpty_eq_true_iff.1 hexternals
      cases entry <;>
        simp [hexternals, hentry, Fields.required, Fields.optional, Fields.withDefault, List.lookup_cons,
          exact_target.ofJson?_toJson, exact_stage.list.ofJson?_toJson,
          exact_diagnosticPolicy.ofJson?_toJson]
    · cases entry <;>
        simp [hexternals, hentry, Fields.required, Fields.optional, Fields.withDefault, List.lookup_cons,
          exact_target.ofJson?_toJson, exact_stage.list.ofJson?_toJson,
          exact_nameSet.ofJson?_toJson, exact_diagnosticPolicy.ofJson?_toJson]

theorem exact_plan : Exact Plan 8 := by
  apply exact_of_fields (fun _ => rfl) (fun _ => rfl) (by decide)
  case hnames => exact fun _ => .refl _
  case hfaithful =>
    simp [Json.Faithful.string, exact_environment.faithful_of_le,
      exact_aliasEntry.list.faithful_of_le, exact_pipeline.targetMap.faithful]
  case hbuild =>
    simp [Fields.required, Fields.withDefault, List.lookup_cons, Json.string?,
      exact_environment.ofJson?_toJson, exact_aliasEntry.list.ofJson?_toJson,
      exact_pipeline.targetMap.ofJson?_toJson]

-- ════════════════════════════════════════════════════════════════════════
-- Module graphs and artifacts
-- ════════════════════════════════════════════════════════════════════════

theorem exact_moduleGraph : Exact ModuleGraph 2 := by
  apply exact_of_fields (fun _ => rfl) (fun _ => rfl) (by decide)
  case hnames => exact fun _ => .refl _
  case hfaithful => simp [Json.Faithful.string, exact_string.nameMap.faithful]
  case hbuild =>
    simp [Fields.required, Fields.withDefault, List.lookup_cons, Json.string?,
      exact_string.nameMap.ofJson?_toJson]

/-- A missing output is read as missing. -/
theorem exact_artifact : Exact Artifact 3 := by
  apply exact_of_fields (fun _ => rfl) (fun _ => rfl) (by decide)
  case hfaithful =>
    rintro ⟨target, output, graph⟩
    cases output <;>
      simp [Json.Faithful.string, exact_target.faithful_of_le, exact_moduleGraph.faithful]
  case hnames =>
    rintro ⟨target, output, graph⟩
    cases output <;> simp
  case hbuild =>
    rintro ⟨target, output, graph⟩
    cases output <;>
      simp [Fields.required, Fields.optional, Fields.withDefault, List.lookup_cons, Json.option?,
        Json.string?, exact_target.ofJson?_toJson, exact_moduleGraph.ofJson?_toJson]

-- ════════════════════════════════════════════════════════════════════════
-- Texts
-- ════════════════════════════════════════════════════════════════════════

/-- Writing a document and reading the text, in either layout, gives the document back, whatever
texts, lists, sets, maps and numbers are in it. -/
theorem documents_roundTrip :
    RoundTrips Mode ∧ RoundTrips Environment ∧ RoundTrips Target ∧ RoundTrips StageId ∧
      RoundTrips AliasEntry ∧ RoundTrips StageOptions ∧ RoundTrips Stage ∧ RoundTrips EntryPoint ∧
      RoundTrips DiagnosticPolicy ∧ RoundTrips Pipeline ∧ RoundTrips Plan ∧
      RoundTrips Diagnostic ∧ RoundTrips ModuleGraph ∧ RoundTrips Artifact := by
  refine ⟨exact_mode.roundTrips ?_, exact_environment.roundTrips ?_, exact_target.roundTrips ?_,
    exact_stageId.roundTrips ?_, exact_aliasEntry.roundTrips ?_, exact_stageOptions.roundTrips ?_,
    exact_stage.roundTrips ?_, exact_entryPoint.roundTrips ?_, exact_diagnosticPolicy.roundTrips ?_,
    exact_pipeline.roundTrips ?_, exact_plan.roundTrips ?_, exact_diagnostic.roundTrips ?_,
    exact_moduleGraph.roundTrips ?_, exact_artifact.roundTrips ?_⟩
  all_goals decide

end Document
end StagedBuild
