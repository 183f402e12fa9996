import StagedBuild.Build
import StagedBuild.Proofs.Text.Trim
import StagedBuild.Proofs.Traversal

/-!
# Selecting targets

A plan for named targets is the plan for all targets without the pipelines of the others: what is
planned for a target does not depend on which other targets are asked for.

## Main definitions

* `Target.NamedIn`: some of the listed texts names the target.
* `Plan.RestrictsTo`: a plan with some of the pipelines of another.

## Main results

* `Settings.selectTargets_eq_ok`, `Settings.selectTargets_eq_error`: which names are understood.
* `Settings.planTargets_congr`: order and repetition of targets do not matter.
* `Settings.planTargets_restricts`: fewer targets, the same pipelines.
-/

namespace StagedBuild

namespace Target

theorem solid_name (target : Target) : Text.Solid target.name.toList := by
  cases target <;> decide

/-- Some of the texts is the name of the target with white space around it. -/
def NamedIn (names : List String) (target : Target) : Prop :=
  ∃ name ∈ names, Text.Padded target.name name

/-- The text is the name of no target, whatever white space is around it. -/
def Unnamed (name : String) : Prop :=
  ∀ target : Target, ¬ Text.Padded target.name name

theorem parse_trim_eq_ok_iff {name : String} {target : Target} :
    parse (Text.trim name) = .ok target ↔ Text.Padded target.name name := by
  rw [← Text.trim_eq_iff_padded target.solid_name]
  constructor
  · intro h
    by_cases hname : ∃ other : Target, Text.trim name = other.name
    · obtain ⟨other, hother⟩ := hname
      rw [hother, parse_name] at h
      cases h
      exact hother
    · rw [parse_eq_error fun other hother => hname ⟨other, hother⟩] at h
      cases h
  · intro h
    rw [h, parse_name]

theorem parse_trim_eq_error {name : String} (h : Unnamed name) :
    parse (Text.trim name) = .error (.unknownTarget (Text.trim name)) := by
  apply parse_eq_error
  intro target heq
  exact h target ((Text.trim_eq_iff_padded target.solid_name).1 heq)

end Target

/-- The plan `part` is the plan `full` without the pipelines of targets that are not kept. -/
structure Plan.RestrictsTo (full part : Plan) (kept : Target → Prop) : Prop where
  schema : part.schema = full.schema
  env : part.env = full.env
  aliases : part.aliases = full.aliases
  same : ∀ target, kept target → part.pipelines.get? target = full.pipelines.get? target
  gone : ∀ target, ¬ kept target → part.pipelines.get? target = none
  order : part.pipelines.values.Sublist full.pipelines.values

namespace Settings

-- ════════════════════════════════════════════════════════════════════════
-- Names
-- ════════════════════════════════════════════════════════════════════════

/-- Names of targets are understood, and stand for the targets that they name. -/
theorem selectTargets_eq_ok {names : List String}
    (h : ∀ name ∈ names, ∃ target : Target, Text.Padded target.name name) :
    ∃ targets, selectTargets names = .ok targets ∧
      ∀ target, target ∈ targets ↔ target.NamedIn names := by
  have hparse : ∀ name ∈ names, ∃ target,
      Target.parse (Text.trim name) = .ok target := by
    intro name hmem
    obtain ⟨target, hpadded⟩ := h name hmem
    exact ⟨target, Target.parse_trim_eq_ok_iff.2 hpadded⟩
  obtain ⟨targets, htargets⟩ := Traversal.exists_map_eq hparse
  refine ⟨targets, Traversal.mapM_eq_ok htargets, ?_⟩
  intro target
  constructor
  · intro hmem
    have hok : Except.ok target ∈ names.map fun name => Target.parse (Text.trim name) :=
      htargets ▸ List.mem_map_of_mem hmem
    obtain ⟨name, hname, heq⟩ := List.mem_map.1 hok
    exact ⟨name, hname, Target.parse_trim_eq_ok_iff.1 heq⟩
  · rintro ⟨name, hname, hpadded⟩
    have hok : Except.ok target ∈ targets.map (Except.ok (ε := BuildFailure)) := by
      rw [← htargets]
      exact List.mem_map.2 ⟨name, hname, Target.parse_trim_eq_ok_iff.2 hpadded⟩
    obtain ⟨other, hother, heq⟩ := List.mem_map.1 hok
    cases heq
    exact hother

/-- The first text that names no target is reported without the white space around it. -/
theorem selectTargets_eq_error {before after : List String} {name : String}
    (hbefore : ∀ earlier ∈ before, ¬ Target.Unnamed earlier) (hname : Target.Unnamed name) :
    selectTargets (before ++ name :: after) = .error (.unknownTarget (Text.trim name)) := by
  apply Traversal.mapM_eq_error
  · intro earlier hmem
    obtain ⟨target, hpadded⟩ := Classical.not_forall_not.1 (hbefore earlier hmem)
    exact ⟨target, Target.parse_trim_eq_ok_iff.2 hpadded⟩
  · exact Target.parse_trim_eq_error hname

-- ════════════════════════════════════════════════════════════════════════
-- Targets
-- ════════════════════════════════════════════════════════════════════════

variable [PatternCompiler] (settings : Settings) (stages : List StageId) (env : Environment)

theorem planTargets_of_ok {context : PlanContext} (h : settings.planContext env = .ok context)
    (targets : List Target) :
    settings.planTargets stages env targets = .ok {
      schema := Plan.currentSchema
      env
      aliases := context.aliases.entries
      pipelines := TargetMap.ofList
        (targets.map fun target => (target, settings.pipeline stages context target)) } := by
  rw [planTargets, h]
  rfl

theorem planTargets_of_error {failure : BuildFailure}
    (h : settings.planContext env = .error failure) (targets : List Target) :
    settings.planTargets stages env targets = .error failure := by
  rw [planTargets, h]
  rfl

/-- A failure does not depend on the targets. -/
theorem planTargets_eq_error_iff (targets : List Target) (failure : BuildFailure) :
    settings.planTargets stages env targets = .error failure ↔
      settings.planContext env = .error failure := by
  cases h : settings.planContext env with
  | error other =>
    rw [planTargets_of_error settings stages env h]
    simp
  | ok context =>
    rw [planTargets_of_ok settings stages env h]
    simp

/-- Only which targets are listed counts, not how often and in which order. -/
theorem planTargets_congr {targets others : List Target}
    (h : ∀ target, target ∈ targets ↔ target ∈ others) :
    settings.planTargets stages env targets = settings.planTargets stages env others := by
  cases hcontext : settings.planContext env with
  | error failure =>
    rw [planTargets_of_error settings stages env hcontext,
      planTargets_of_error settings stages env hcontext]
  | ok context =>
    rw [planTargets_of_ok settings stages env hcontext,
      planTargets_of_ok settings stages env hcontext]
    congr 2
    apply TargetMap.ext_get?
    intro target
    rw [TargetMap.get?_ofList_map, TargetMap.get?_ofList_map]
    simp only [h target]

/-- The plan for all targets has a pipeline for each, and with fewer targets those that are left are
planned in the same way. -/
theorem planTargets_restricts {full : Plan} (hfull : settings.planAll stages env = .ok full)
    (targets : List Target) :
    (∀ target, (full.pipelines.get? target).isSome) ∧
    ∃ part, settings.planTargets stages env targets = .ok part ∧
      full.RestrictsTo part fun target => target ∈ targets := by
  cases hcontext : settings.planContext env with
  | error failure =>
    rw [planAll, planTargets_of_error settings stages env hcontext] at hfull
    cases hfull
  | ok context =>
    rw [planAll, planTargets_of_ok settings stages env hcontext] at hfull
    cases hfull
    have hget : ∀ target, (TargetMap.ofList (Target.all.map fun target =>
        (target, settings.pipeline stages context target))).get? target =
        some (settings.pipeline stages context target) := by
      intro target
      rw [TargetMap.get?_ofList_map, if_pos target.mem_all]
    refine ⟨?_, _, planTargets_of_ok settings stages env hcontext targets, ?_⟩
    · intro target
      rw [hget]
      rfl
    · have hsame : ∀ target, target ∈ targets → (TargetMap.ofList (targets.map fun target =>
          (target, settings.pipeline stages context target))).get? target =
          some (settings.pipeline stages context target) := by
        intro target hmem
        rw [TargetMap.get?_ofList_map, if_pos hmem]
      have hgone : ∀ target, target ∉ targets → (TargetMap.ofList (targets.map fun target =>
          (target, settings.pipeline stages context target))).get? target = none := by
        intro target hmem
        rw [TargetMap.get?_ofList_map, if_neg hmem]
      refine ⟨rfl, rfl, rfl, ?_, hgone, ?_⟩
      · intro target hmem
        exact (hsame target hmem).trans (hget target).symm
      · apply TargetMap.values_sublist
        intro target
        by_cases hmem : target ∈ targets
        · exact .inl ((hsame target hmem).trans (hget target).symm)
        · exact .inr (hgone target hmem)

-- ════════════════════════════════════════════════════════════════════════
-- Named targets
-- ════════════════════════════════════════════════════════════════════════

/-- Asking for targets by name. If every text names a target, the plan fails exactly when the plan
for all targets does, and with the same failure; otherwise it is that plan with the pipelines of
the named targets only, and it stays the same for any other texts that name the same targets, in
whatever order, however often and with whatever white space around them. If some text names no
target, the first such text is reported, trimmed, whatever the settings are. -/
theorem planSelected_restricts_planAll (names : List String) :
    ((∀ name ∈ names, ∃ target : Target, Text.Padded target.name name) →
      (∀ failure, settings.planSelected stages env names = .error failure ↔
        settings.planAll stages env = .error failure) ∧
      (∀ full, settings.planAll stages env = .ok full →
        (∀ target, (full.pipelines.get? target).isSome) ∧
        ∃ part, settings.planSelected stages env names = .ok part ∧
          full.RestrictsTo part (Target.NamedIn names)) ∧
      (∀ others, (∀ name ∈ others, ∃ target : Target, Text.Padded target.name name) →
        (∀ target : Target, target.NamedIn others ↔ target.NamedIn names) →
        settings.planSelected stages env others = settings.planSelected stages env names)) ∧
    ((∃ name ∈ names, Target.Unnamed name) →
      ∃ before name after, names = before ++ name :: after ∧
        (∀ earlier ∈ before, ∃ target : Target, Text.Padded target.name earlier) ∧
        Target.Unnamed name ∧
        settings.planSelected stages env names = .error (.unknownTarget (Text.trim name))) := by
  constructor
  · intro hnames
    obtain ⟨targets, htargets, hmem⟩ := selectTargets_eq_ok hnames
    have hselected : settings.planSelected stages env names =
        settings.planTargets stages env targets := by
      rw [planSelected, htargets]
      rfl
    refine ⟨?_, ?_, ?_⟩
    · intro failure
      rw [hselected, planAll, planTargets_eq_error_iff, planTargets_eq_error_iff]
    · intro full hfull
      obtain ⟨hall, part, hpart, hrestricts⟩ :=
        planTargets_restricts settings stages env hfull targets
      have hkept : (fun target => target ∈ targets) = Target.NamedIn names := by
        funext target
        exact propext (hmem target)
      refine ⟨hall, part, hselected.trans hpart, ?_⟩
      rw [← hkept]
      exact hrestricts
    · intro others hothers hsame
      obtain ⟨otherTargets, hother, hothermem⟩ := selectTargets_eq_ok hothers
      rw [hselected, planSelected, hother]
      apply planTargets_congr
      intro target
      rw [hothermem, hmem, hsame]
  · intro hunnamed
    obtain ⟨before, name, after, rfl, hbefore, hname⟩ := Traversal.exists_first hunnamed
    refine ⟨before, name, after, rfl, ?_, hname, ?_⟩
    · intro earlier hearlier
      exact Classical.not_forall_not.1 (hbefore earlier hearlier)
    · rw [planSelected, selectTargets_eq_error hbefore hname]
      rfl

end Settings
end StagedBuild
