import StagedBuild.Configuration
import StagedBuild.Proofs.Collections
import StagedBuild.Proofs.Path.Absolutize
import StagedBuild.Proofs.Planning.Outcome
import StagedBuild.Proofs.Text.Order
import StagedBuild.Proofs.Text.Trim

/-!
# What a configuration changes

The settings of a project are those of a project that asks for nothing, except for what its
configuration says. Entry points are given by name; the first name that is no target's decides why
there are no settings.

## Main definitions

* `TargetMap.named`: a map from targets as a map from names.
* `Configuration.FirstUnknown`: the first of some names that is no target's.
* `Configuration.Changes`: settings that differ from others in what a configuration says, and only
  there.
* `Configuration.ListsBuiltins`: the modules of a runtime as they are listed.

## Main results

* `TargetMap.exists_named_iff`: the maps from names that are maps from targets.
* `Configuration.exists_settings`, `Configuration.settings_eq_error`: the two outcomes.
* `Configuration.isAbsolute_of_mem_aliases`: aliases do not depend on the current directory.
* `Configuration.settings_change_what_is_configured`: when there are settings, what they are, and
  which pipelines have an entry point.
-/

namespace StagedBuild

-- ════════════════════════════════════════════════════════════════════════
-- Maps from targets by name
-- ════════════════════════════════════════════════════════════════════════

theorem Target.name_inj {target other : Target} : target.name = other.name ↔ target = other := by
  cases target <;> cases other <;> decide

namespace TargetMap

variable {α : Type}

theorem mem_entries_iff {map : TargetMap α} {target : Target} {value : α} :
    (target, value) ∈ map.entries ↔ map.get? target = some value := by
  rw [entries, List.mem_filterMap]
  constructor
  · rintro ⟨other, -, h⟩
    obtain ⟨found, hfound, heq⟩ := Option.map_eq_some_iff.1 h
    cases heq
    exact hfound
  · intro h
    exact ⟨target, Target.mem_all target, by rw [h, Option.map_some]⟩

/-- The targets stand in the order of their names. -/
theorem increasing_entries (map : TargetMap α) :
    map.entries.Pairwise fun a b => a.1.name < b.1.name := by
  have hnames : Target.all.Pairwise fun a b => a.name < b.name := by decide
  rw [entries, List.pairwise_filterMap]
  apply hnames.imp
  intro target other hlt a ha b hb
  obtain ⟨x, -, rfl⟩ := Option.map_eq_some_iff.1 ha
  obtain ⟨y, -, rfl⟩ := Option.map_eq_some_iff.1 hb
  exact hlt

/-- The map in which the targets' names stand for the targets. -/
def named (map : TargetMap α) : NameMap α where
  entries := map.entries.map fun entry => (entry.1.name, entry.2)
  increasing := List.pairwise_map.2 map.increasing_entries

theorem mem_named_iff {map : TargetMap α} {name : String} {value : α} :
    (name, value) ∈ map.named.entries ↔
      ∃ target : Target, name = target.name ∧ map.get? target = some value := by
  rw [named, List.mem_map]
  constructor
  · rintro ⟨⟨target, found⟩, hmem, heq⟩
    cases heq
    exact ⟨target, rfl, mem_entries_iff.1 hmem⟩
  · rintro ⟨target, rfl, h⟩
    exact ⟨(target, value), mem_entries_iff.2 h, rfl⟩

theorem get?_named (map : TargetMap α) (target : Target) :
    map.named.get? target.name = map.get? target := by
  apply Option.ext
  intro value
  rw [NameMap.get?_eq_some_iff, mem_named_iff]
  constructor
  · rintro ⟨other, heq, h⟩
    rwa [Target.name_inj.1 heq]
  · intro h
    exact ⟨target, rfl, h⟩

theorem named_inj {map other : TargetMap α} : map.named = other.named ↔ map = other := by
  refine ⟨fun h => ext_get? fun target => ?_, congrArg named⟩
  rw [← get?_named, h, get?_named]

/-- A map from names is one from targets if all of its names are targets'. -/
theorem exists_named_iff {map : NameMap α} :
    (∃ values : TargetMap α, values.named = map) ↔
      ∀ name ∈ map.names, ∃ target : Target, name = target.name := by
  constructor
  · rintro ⟨values, rfl⟩ name hname
    obtain ⟨⟨_, value⟩, hmem, rfl⟩ := List.mem_map.1 hname
    obtain ⟨target, rfl, -⟩ := mem_named_iff.1 hmem
    exact ⟨target, rfl⟩
  · intro hnames
    let values : TargetMap α := ⟨map.get? Target.client.name, map.get? Target.server.name,
      map.get? Target.serviceWorker.name⟩
    have hget : ∀ target, values.get? target = map.get? target.name := by
      intro target
      cases target <;> rfl
    refine ⟨values, NameMap.ext_get? fun name => Option.ext fun value => ?_⟩
    rw [NameMap.get?_eq_some_iff, mem_named_iff]
    constructor
    · rintro ⟨target, rfl, h⟩
      rwa [← hget]
    · intro h
      obtain ⟨target, rfl⟩ := hnames name (List.mem_map_of_mem (NameMap.get?_eq_some_iff.1 h))
      exact ⟨target, rfl, (hget target).trans h⟩

end TargetMap

-- ════════════════════════════════════════════════════════════════════════
-- Settings
-- ════════════════════════════════════════════════════════════════════════

namespace Configuration

/-- The first of some names, by code points, that is no target's. -/
structure FirstUnknown (names : List String) (name : String) : Prop where
  mem : name ∈ names
  unknown : ∀ target : Target, name ≠ target.name
  first : ∀ other ∈ names, (∀ target : Target, other ≠ target.name) → other ≠ name →
    Text.codePoints name < Text.codePoints other

/-- What is given takes the place of a default. -/
def Replaces {α : Type} (given : Option α) (default value : α) : Prop :=
  (given = none → value = default) ∧ ∀ replacement, given = some replacement → value = replacement

/-- Settings that differ from the defaults of a project in what its configuration says. -/
structure Changes (config : Configuration) (root : String) (defaults settings : Settings) :
    Prop where
  projectRoot : settings.projectRoot = defaults.projectRoot
  declared : settings.declared = defaults.declared
  defaultAliases : config.aliases = [] → settings.aliases = defaults.aliases
  aliases : config.aliases ≠ [] → settings.aliases = config.aliases.map fun given =>
    ⟨given.name, if Path.isAbsolute given.path then given.path else Path.join root given.path⟩
  extensions : Replaces config.extensions defaults.extensions settings.extensions
  defaultDedupe : config.dedupe = none → settings.dedupe = defaults.dedupe
  /-- A given package counts without the white space around it, if anything is left. -/
  dedupe : ∀ text, config.dedupe = some text → ∀ package, settings.dedupe = some package ↔
    package ≠ "" ∧ Text.Solid package.toList ∧ Text.Padded package text
  frameworkNamespace :
    Replaces config.frameworkNamespace defaults.frameworkNamespace settings.frameworkNamespace
  diagnosticCode : Replaces config.circularCode defaults.diagnosticCode settings.diagnosticCode
  hostBuiltins : Replaces config.runtime defaults.hostBuiltins settings.hostBuiltins
  /-- Each name has the entry point that it is given. -/
  entries : settings.entries.named = config.entries

variable {config : Configuration} {root : String} {defaults settings other : Settings}

theorem replaces_iff {α : Type} {given : Option α} {default value : α} :
    Replaces given default value ↔ value = given.getD default := by
  cases given <;> simp [Replaces]

theorem trimmed?_eq_some_iff {text package : String} : trimmed? text = some package ↔
    package ≠ "" ∧ Text.Solid package.toList ∧ Text.Padded package text := by
  rw [← Text.trim_eq_iff, trimmed?]
  split
  · next hempty => simp [hempty, eq_comm]
  · next hne =>
    rw [Option.some.injEq]
    exact ⟨fun h => ⟨h ▸ hne, h⟩, And.right⟩

/-- What a configuration says determines the settings. -/
theorem Changes.unique (h : config.Changes root defaults settings)
    (hother : config.Changes root defaults other) : settings = other := by
  have haliases : settings.aliases = other.aliases := by
    by_cases hnil : config.aliases = []
    · rw [h.defaultAliases hnil, hother.defaultAliases hnil]
    · rw [h.aliases hnil, hother.aliases hnil]
  have hdedupe : settings.dedupe = other.dedupe := by
    cases hgiven : config.dedupe with
    | none => rw [h.defaultDedupe hgiven, hother.defaultDedupe hgiven]
    | some text =>
      apply Option.ext
      intro package
      rw [h.dedupe text hgiven, hother.dedupe text hgiven]
  have hreplaced {α : Type} {given : Option α} {default a b : α} (ha : Replaces given default a)
      (hb : Replaces given default b) : a = b :=
    (replaces_iff.1 ha).trans (replaces_iff.1 hb).symm
  obtain ⟨_, _, _, _, _, _, _, _, _⟩ := settings
  obtain ⟨_, _, _, _, _, _, _, _, _⟩ := other
  obtain rfl := h.projectRoot.trans hother.projectRoot.symm
  obtain rfl := h.declared.trans hother.declared.symm
  obtain rfl := haliases
  obtain rfl := hdedupe
  obtain rfl := hreplaced h.extensions hother.extensions
  obtain rfl := hreplaced h.frameworkNamespace hother.frameworkNamespace
  obtain rfl := hreplaced h.diagnosticCode hother.diagnosticCode
  obtain rfl := hreplaced h.hostBuiltins hother.hostBuiltins
  obtain rfl := TargetMap.named_inj.1 (h.entries.trans hother.entries.symm)
  rfl

theorem targetEntries_named (values : TargetMap EntryPoint) :
    targetEntries values.named.entries = .ok values.entries := by
  apply Traversal.mapM_eq_ok
  rw [TargetMap.named, List.map_map]
  apply List.map_congr_left
  intro entry _
  rw [Function.comp_apply, Target.ofName?_name]

theorem exists_settings
    (h : ∀ name ∈ config.entries.names, ∃ target : Target, name = target.name) (root : String) :
    ∃ settings, config.settings root = .ok settings ∧
      config.Changes root (Settings.forRoot root) settings := by
  obtain ⟨values, hvalues⟩ := TargetMap.exists_named_iff.2 h
  have hentries : targetEntries config.entries.entries = .ok values.entries := by
    rw [← hvalues, targetEntries_named]
  refine ⟨_, by rw [Configuration.settings, hentries]; rfl, ?_⟩
  constructor
  case projectRoot => rfl
  case declared => rfl
  case defaultAliases =>
    intro hnil
    exact if_pos (List.isEmpty_iff.2 hnil)
  case aliases =>
    intro hne
    refine (if_neg (mt List.isEmpty_iff.1 hne)).trans ?_
    apply List.map_congr_left
    intro given _
    rw [Path.absolutize_eq_ite]
  case extensions => exact replaces_iff.2 rfl
  case defaultDedupe =>
    intro hnone
    show (config.dedupe.map trimmed?).getD _ = _
    rw [hnone]
    rfl
  case dedupe =>
    intro text hgiven package
    show (config.dedupe.map trimmed?).getD _ = _ ↔ _
    rw [hgiven]
    exact trimmed?_eq_some_iff
  case frameworkNamespace => exact replaces_iff.2 rfl
  case diagnosticCode => exact replaces_iff.2 rfl
  case hostBuiltins => exact replaces_iff.2 rfl
  case entries =>
    show (TargetMap.ofList values.entries).named = _
    rw [TargetMap.ofList_entries, hvalues]

theorem FirstUnknown.unique {names : List String} {name other : String}
    (h : FirstUnknown names name) (hother : FirstUnknown names other) : name = other := by
  by_contra hne
  have hlt := h.first other hother.mem hother.unknown (Ne.symm hne)
  have hgt := hother.first name h.mem h.unknown hne
  exact List.lt_asymm hlt hgt

section Unknown

variable {before after : List (String × EntryPoint)} {entry : String × EntryPoint}

/-- Names stand in the order of their code points, so the first one in the list is the least. -/
theorem firstUnknown_of_split {entries : NameMap EntryPoint}
    (hentries : entries.entries = before ++ entry :: after)
    (hbefore : ∀ earlier ∈ before, ¬ ∀ target : Target, earlier.1 ≠ target.name)
    (hunknown : ∀ target : Target, entry.1 ≠ target.name) :
    FirstUnknown entries.names entry.1 := by
  have hincreasing := entries.increasing
  rw [hentries] at hincreasing
  have hafter := (List.pairwise_cons.1 (List.pairwise_append.1 hincreasing).2.1).1
  rw [NameMap.names, hentries]
  refine ⟨List.mem_map_of_mem (List.mem_append_right before List.mem_cons_self), hunknown, ?_⟩
  rintro _ hother hname hne
  obtain ⟨other, hmem, rfl⟩ := List.mem_map.1 hother
  rcases List.mem_append.1 hmem with hmem | hmem
  · exact absurd hname (hbefore other hmem)
  rcases List.mem_cons.1 hmem with rfl | hmem
  · exact absurd rfl hne
  · exact Text.lt_iff_codePoints.1 (hafter other hmem)

theorem targetEntries_eq_error
    (hbefore : ∀ earlier ∈ before, ¬ ∀ target : Target, earlier.1 ≠ target.name)
    (hunknown : ∀ target : Target, entry.1 ≠ target.name) :
    targetEntries (before ++ entry :: after) = .error ⟨entry.1⟩ := by
  apply Traversal.mapM_eq_error
  · intro earlier hmem
    obtain ⟨target, htarget⟩ := not_forall_not.1 (hbefore earlier hmem)
    exact ⟨(target, earlier.2), by rw [htarget, Target.ofName?_name]⟩
  · rw [Target.ofName?_eq_none hunknown]

end Unknown

/-- The names are looked at in their order, so the first one that is no target's is reported. -/
theorem settings_eq_error
    (h : ∃ name ∈ config.entries.names, ∀ target : Target, name ≠ target.name) (root : String) :
    ∃ name, FirstUnknown config.entries.names name ∧ config.settings root = .error ⟨name⟩ := by
  have hexists : ∃ entry ∈ config.entries.entries, ∀ target : Target, entry.1 ≠ target.name := by
    obtain ⟨_, hname, hunknown⟩ := h
    obtain ⟨entry, hmem, rfl⟩ := List.mem_map.1 hname
    exact ⟨entry, hmem, hunknown⟩
  obtain ⟨before, entry, after, hentries, hbefore, hunknown⟩ := Traversal.exists_first hexists
  refine ⟨entry.1, firstUnknown_of_split hentries hbefore hunknown, ?_⟩
  rw [Configuration.settings, hentries, targetEntries_eq_error hbefore hunknown]
  rfl

theorem settings_eq_error_iff {failure : UnknownEntry} :
    config.settings root = .error failure ↔ FirstUnknown config.entries.names failure.name := by
  obtain ⟨name⟩ := failure
  by_cases hunknown : ∃ name ∈ config.entries.names, ∀ target : Target, name ≠ target.name
  · obtain ⟨first, hfirst, herror⟩ := settings_eq_error hunknown root
    rw [herror]
    constructor
    · intro h
      cases h
      exact hfirst
    · intro h
      rw [hfirst.unique h]
  · constructor
    · intro h
      push Not at hunknown
      obtain ⟨settings, hok, -⟩ := exists_settings hunknown root
      cases hok.symm.trans h
    · intro h
      exact absurd ⟨name, h.mem, h.unknown⟩ hunknown

theorem settings_eq_ok_iff : config.settings root = .ok settings ↔
    (∀ name ∈ config.entries.names, ∃ target : Target, name = target.name) ∧
      config.Changes root (Settings.forRoot root) settings := by
  constructor
  · intro h
    by_cases hknown : ∀ name ∈ config.entries.names, ∃ target : Target, name = target.name
    · obtain ⟨_, hok, hchanges⟩ := exists_settings hknown root
      obtain rfl := Except.ok.inj (hok.symm.trans h)
      exact ⟨hknown, hchanges⟩
    · push Not at hknown
      obtain ⟨_, -, herror⟩ := settings_eq_error hknown root
      cases herror.symm.trans h
  · rintro ⟨hknown, hchanges⟩
    obtain ⟨_, hok, hothers⟩ := exists_settings hknown root
    rw [hchanges.unique hothers, hok]

/-- Below an absolute root every alias leads to an absolute path, whether it is configured or not. -/
theorem isAbsolute_of_mem_aliases (hroot : Path.isAbsolute root = true)
    (h : config.settings root = .ok settings) {entry : AliasEntry} (hmem : entry ∈ settings.aliases) :
    Path.isAbsolute entry.path = true := by
  have hchanges := (settings_eq_ok_iff.1 h).2
  by_cases hnil : config.aliases = []
  · rw [hchanges.defaultAliases hnil] at hmem
    obtain ⟨name, hname, rfl⟩ := List.mem_map.1 hmem
    have hrelative : ∀ name ∈ AliasTable.defaultNames, Path.isAbsolute name = false := by decide
    have hbelow : Path.isAbsolute (Path.join (Path.join root "src") name) = true := by
      rw [Path.isAbsolute_join (hrelative name hname), Path.isAbsolute_join (by decide), hroot]
    rw [Path.isAbsolute_append (Path.ne_empty_of_isAbsolute hbelow), hbelow]
  · rw [hchanges.aliases hnil] at hmem
    obtain ⟨given, -, rfl⟩ := List.mem_map.1 hmem
    rw [← Path.absolutize_eq_ite, Path.isAbsolute_absolutize hroot]

-- ════════════════════════════════════════════════════════════════════════
-- Modules of the runtime
-- ════════════════════════════════════════════════════════════════════════

/-- A configuration's value gives a runtime with these modules, listed in some order. -/
def ListsBuiltins (source : RecordSource) (json : Json) (builtins : HostBuiltins) : Prop :=
  ∃ (fields inner : Fields) (value : Json) (listed : List String),
    json.fields? source ["alias", "resolve", "diagnostics", "runtime", "build", "entries"] =
      some fields ∧
    fields.lookup "runtime" = some value ∧
    value.fields? source ["name", "version", "builtins"] = some inner ∧
    inner.lookup "name" = some (.string builtins.runtime) ∧
    inner.lookup "version" = some (.string builtins.version) ∧
    inner.lookup "builtins" = some (.array (listed.map .string)) ∧
    ∀ name, name ∈ builtins.names ↔ name ∈ listed

section Fields

variable {fields : Fields} {name : String}

theorem lookup_of_required_string {text : String}
    (h : fields.required name Json.string? = some text) :
    fields.lookup name = some (.string text) := by
  obtain ⟨json, hlookup, htext⟩ := Option.bind_eq_some_iff.1 h
  cases json with
  | string s =>
    obtain rfl := Option.some.inj htext
    exact hlookup
  | _ => cases htext

theorem lookup_of_required_texts {texts : List String}
    (h : fields.required name (Json.listOf? Json.string?) = some texts) :
    fields.lookup name = some (.array (texts.map .string)) := by
  obtain ⟨json, hlookup, htexts⟩ := Option.bind_eq_some_iff.1 h
  cases json with
  | array items =>
    have hitems : texts.map Json.string = items.map id := by
      apply Traversal.map_eq_map_of_mapM htexts
      intro item text htext
      cases item with
      | string s => rw [Option.some.inj htext, id]
      | _ => cases htext
    rw [hlookup, hitems, List.map_id]
  | _ => cases htexts

/-- An optional field that has a value is given. -/
theorem lookup_of_optional {α : Type} {read : Json → Option α} {value : α}
    (h : fields.optional name read = some (some value)) :
    ∃ json, fields.lookup name = some json ∧ read json = some value := by
  rw [Fields.optional, Fields.withDefault] at h
  split at h
  · cases h
  · next json hlookup =>
    refine ⟨json, hlookup, ?_⟩
    unfold Json.option? at h
    split at h
    · cases h
    · obtain ⟨_, hread, hvalue⟩ := Option.map_eq_some_iff.1 h
      rw [hread, Option.some.inj hvalue]

end Fields

theorem listsBuiltins_of_ofJson? {source : RecordSource} {json : Json} {builtins : HostBuiltins}
    (h : ofJson? source json = some config) (hruntime : config.runtime = some builtins) :
    ListsBuiltins source json builtins := by
  obtain ⟨fields, hfields, h⟩ := Option.bind_eq_some_iff.1 h
  obtain ⟨_, -, h⟩ := Option.bind_eq_some_iff.1 h
  obtain ⟨⟨_, _⟩, -, h⟩ := Option.bind_eq_some_iff.1 h
  obtain ⟨⟨_, _⟩, -, h⟩ := Option.bind_eq_some_iff.1 h
  obtain ⟨runtime, hoptional, h⟩ := Option.bind_eq_some_iff.1 h
  obtain ⟨_, -, h⟩ := Option.bind_eq_some_iff.1 h
  obtain ⟨_, -, h⟩ := Option.bind_eq_some_iff.1 h
  obtain rfl := Option.some.inj h
  obtain rfl : runtime = some builtins := hruntime
  obtain ⟨value, hvalue, hread⟩ := lookup_of_optional hoptional
  obtain ⟨inner, hinner, hread⟩ := Option.bind_eq_some_iff.1 hread
  obtain ⟨_, hname, hread⟩ := Option.bind_eq_some_iff.1 hread
  obtain ⟨_, hversion, hread⟩ := Option.bind_eq_some_iff.1 hread
  obtain ⟨listed, hlisted, hread⟩ := Option.bind_eq_some_iff.1 hread
  obtain rfl := Option.some.inj hread
  exact ⟨fields, inner, value, listed, hfields, hvalue, hinner, lookup_of_required_string hname,
    lookup_of_required_string hversion, lookup_of_required_texts hlisted, fun _ => NameSet.mem_ofList⟩

-- ════════════════════════════════════════════════════════════════════════
-- Entry points in plans
-- ════════════════════════════════════════════════════════════════════════

/-- A pipeline has the entry point that the configuration gives for its target. -/
theorem entry_of_planRequested [PatternCompiler] (hsettings : config.settings root = .ok settings)
    {declared : NameSet} {stages : List StageId} {env : Environment}
    {request : Option (List String)} {plan : Plan}
    (hplan : { settings with declared }.planRequested stages env request = .ok plan)
    {target : Target} {pipeline : Pipeline} (hget : plan.pipelines.get? target = some pipeline) :
    pipeline.entry = config.entries.get? target.name := by
  have hentries := (settings_eq_ok_iff.1 hsettings).2.entries
  rw [Settings.pipeline_of_planRequested hplan hget, ← hentries, TargetMap.get?_named]
  rfl

/-- There are no settings exactly if some name below `entries` is no target's, and the first such name
by code points is reported. Otherwise the settings are those of a project that asks for nothing,
except for what the configuration says. A configuration that was read says of the runtime what is
written, its modules as a set. In a plan for these settings, whatever the project declares, a pipeline
has an entry point exactly if one is given for its target, and it is that one. -/
theorem settings_change_what_is_configured [PatternCompiler] (config : Configuration)
    (root : String) :
    ((∃ failure, config.settings root = .error failure) ↔
      ∃ name ∈ config.entries.names, ∀ target : Target, name ≠ target.name) ∧
    (∀ failure, config.settings root = .error failure ↔
      FirstUnknown config.entries.names failure.name) ∧
    (∀ name, UnknownEntry.message ⟨name⟩ = "[entries." ++ name ++ "] in bundleplan.toml" ∧
      UnknownEntry.cause ⟨name⟩ = .unknownTarget name) ∧
    (∀ settings, config.settings root = .ok settings ↔
      (∀ name ∈ config.entries.names, ∃ target : Target, name = target.name) ∧
        config.Changes root (Settings.forRoot root) settings) ∧
    (∀ source json builtins, ofJson? source json = some config → config.runtime = some builtins →
      ListsBuiltins source json builtins) ∧
    ∀ (settings : Settings) declared stages env request plan,
      config.settings root = .ok settings →
      { settings with declared }.planRequested stages env request = .ok plan →
      ∀ target pipeline, plan.pipelines.get? target = some pipeline →
        ∀ entry, pipeline.entry = some entry ↔ (target.name, entry) ∈ config.entries.entries := by
  have hmessage : ∀ name, UnknownEntry.message ⟨name⟩ =
      "[entries." ++ name ++ "] in bundleplan.toml" := by
    intro name
    simp [UnknownEntry.message, fileName, String.append_assoc]
  refine ⟨?_, fun _ => settings_eq_error_iff, fun name => ⟨hmessage name, rfl⟩,
    fun _ => settings_eq_ok_iff, fun _ _ _ => listsBuiltins_of_ofJson?, ?_⟩
  · constructor
    · rintro ⟨failure, h⟩
      have hfirst := settings_eq_error_iff.1 h
      exact ⟨failure.name, hfirst.mem, hfirst.unknown⟩
    · intro hunknown
      obtain ⟨name, -, herror⟩ := settings_eq_error hunknown root
      exact ⟨⟨name⟩, herror⟩
  · intro settings declared stages env request plan hsettings hplan target pipeline hget entry
    rw [entry_of_planRequested hsettings hplan hget, NameMap.get?_eq_some_iff]

-- a configuration that changes some of the settings and gives one entry point, and entry points of
-- which two are for no target

def serverJson : Json :=
  .object [("alias", .array [.object [("find", .string "@lib"), ("replacement", .string "src/lib")],
      .object [("find", .string "@vendor"), ("replacement", .string "/opt/vendor")]]),
    ("resolve", .object [("dedupe", .string " preact\n")]),
    ("runtime", .object [("name", .string "node"), ("version", .string "18"),
      ("builtins", .array [.string "path", .string "fs", .string "path"])]),
    ("entries", .object [("server", .object [("input", .string "src/server.js"),
      ("output", .string "server")])])]

def serverConfig : Configuration where
  aliases := [⟨"@lib", "src/lib"⟩, ⟨"@vendor", "/opt/vendor"⟩]
  dedupe := some " preact\n"
  runtime := some ⟨"node", "18", .ofList ["fs", "path"]⟩
  entries := .ofList [("server", ⟨"src/server.js", "server"⟩)]

def serverSettings : Settings :=
  { Settings.forRoot "/app" with
    aliases := [⟨"@lib", "/app/src/lib"⟩, ⟨"@vendor", "/opt/vendor"⟩]
    dedupe := some "preact"
    hostBuiltins := ⟨"node", "18", .ofList ["fs", "path"]⟩
    entries := .ofList [(.server, ⟨"src/server.js", "server"⟩)] }

def misnamedConfig : Configuration where
  entries := .ofList [("worker", ⟨"w.js", "w"⟩), ("client", ⟨"c.js", "c"⟩), ("edge", ⟨"e.js", "e"⟩)]

theorem settings_serverConfig :
    (serverConfig.settings "/app" = .ok serverSettings ∧
      serverConfig.Changes "/app" (Settings.forRoot "/app") serverSettings) ∧
    ListsBuiltins .json serverJson ⟨"node", "18", .ofList ["fs", "path"]⟩ ∧
    (∃ plan pipeline other, serverSettings.planRequested Schedule.defaultStages
        ⟨.production, false, true, false⟩ none = .ok plan ∧
      plan.pipelines.get? .server = some pipeline ∧
      pipeline.entry = some ⟨"src/server.js", "server"⟩ ∧
      plan.pipelines.get? .client = some other ∧ other.entry = none) ∧
    misnamedConfig.settings "/app" = .error ⟨"edge"⟩ := by
  have hread : ofJson? .json serverJson = some serverConfig := by decide +kernel
  have hsettings : serverConfig.settings "/app" = .ok serverSettings := by decide +kernel
  have hplan : serverSettings.planRequested Schedule.defaultStages ⟨.production, false, true, false⟩
      none = .ok _ :=
    Settings.planTargets_of_sound ⟨by decide +kernel, by decide +kernel⟩ (by decide +kernel) _
  obtain ⟨-, -, -, hok, hlists, hplans⟩ := settings_change_what_is_configured serverConfig "/app"
  obtain ⟨-, herror, -⟩ := settings_change_what_is_configured misnamedConfig "/app"
  have hserver := hplans serverSettings .empty _ _ _ _ hsettings hplan .server _ rfl
  have hclient := hplans serverSettings .empty _ _ _ _ hsettings hplan .client _ rfl
  have hentries : serverConfig.entries.entries = [("server", ⟨"src/server.js", "server"⟩)] := by
    decide +kernel
  have hnames : misnamedConfig.entries.names = ["client", "edge", "worker"] := by decide +kernel
  refine ⟨⟨hsettings, ((hok _).1 hsettings).2⟩, hlists _ _ _ hread rfl,
    ⟨_, _, _, hplan, rfl, (hserver _).2 ?_, rfl, ?_⟩, (herror _).2 ?_⟩
  · rw [hentries]
    exact List.mem_singleton_self _
  · rw [Option.eq_none_iff_forall_ne_some]
    intro entry hentry
    rw [hclient, hentries] at hentry
    simp [Target.name] at hentry
  · rw [hnames]
    refine ⟨by simp, fun target => by cases target <;> decide, ?_⟩
    intro other hother hunknown hne
    simp only [List.mem_cons, List.not_mem_nil, or_false] at hother
    rcases hother with rfl | rfl | rfl
    · exact absurd rfl (hunknown .client)
    · exact absurd rfl hne
    · decide

end Configuration

end StagedBuild
