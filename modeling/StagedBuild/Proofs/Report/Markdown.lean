import StagedBuild.Proofs.Report.Outline
import StagedBuild.Proofs.Report.Sections

/-!
# The document and the outline of a plan

The document of a plan says more than its outline, and the texts of the plan stand all over it. They
never begin a line, so the headings and the numbered lines are those of the pipelines and stages, and
the document tells the same stages for the same targets as the outline.

## Main definitions

* `Plan.texts`: all texts that a plan holds.
* `DocumentSection.read?`: the target of a heading and the stages of the items below it.

## Main results

* `StageOptions.unbroken_summary`: a summary of options without line feeds is on one line.
* `Plan.splitAt_markdown`: the lines of a document.
* `Plan.markdown_tells_outline`: what its headings, items and counts are.
-/

namespace StagedBuild

-- ════════════════════════════════════════════════════════════════════════
-- The texts of a plan
-- ════════════════════════════════════════════════════════════════════════

def AliasEntry.texts (entry : AliasEntry) : List String :=
  [entry.name, entry.path]

def StageOptions.texts : StageOptions → List String
  | aliasResolution entries extensions => entries.flatMap AliasEntry.texts ++ extensions
  | envSubstitution replacements => replacements.entries.flatMap fun entry => [entry.1, entry.2]
  | moduleResolution _ dedupe => dedupe.toList
  | legacyDownlevel options =>
    options.extensions ++ options.exclude ++ [options.browserslist] ++ options.plugins
  | componentCompilation _ | interopNormalization | typedSource _ | minification _ => []

def Pipeline.texts (pipeline : Pipeline) : List String :=
  (pipeline.entry.toList.flatMap fun entry => [entry.input, entry.output]) ++
    (pipeline.stages.flatMap fun stage => stage.options.texts) ++ pipeline.externals.names ++
    [pipeline.diagnostics.code, pipeline.diagnostics.namespaceName]

/-- All texts that the plan holds, names of variables and modules included. -/
def Plan.texts (plan : Plan) : List String :=
  plan.schema :: (plan.aliases.flatMap AliasEntry.texts ++
    plan.pipelines.values.flatMap Pipeline.texts)

-- ════════════════════════════════════════════════════════════════════════
-- Lines without line feeds
-- ════════════════════════════════════════════════════════════════════════

open Text (Unbroken unbroken_append unbroken_joinWith)

@[simp] theorem unbroken_inCode {text : String} : Unbroken (inCode text) ↔ Unbroken text := by
  have hquote : Unbroken "`" := by decide
  simp [inCode, hquote]

@[simp] theorem unbroken_repr (n : Nat) : Unbroken n.repr := by
  rw [Unbroken, Nat.toList_repr]
  intro hmem
  have hdigit := Nat.isDigit_of_mem_toDigits (by decide) (by decide) hmem
  revert hdigit
  decide

theorem unbroken_flagInCode (flag : Bool) : Unbroken (flagInCode flag) := by
  cases flag <;> decide

theorem Mode.unbroken_name (mode : Mode) : Unbroken mode.name := by
  cases mode <;> decide

theorem mem_wordsThatApply {words : List (Bool × String)} {word : String}
    (h : word ∈ wordsThatApply words) : ∃ applies, (applies, word) ∈ words := by
  obtain ⟨⟨applies, _⟩, hmem, rfl⟩ := List.mem_map.1 h
  exact ⟨applies, (List.mem_filter.1 hmem).1⟩

/-- Options without line feeds are summed up on one line, whatever kind they are. -/
theorem StageOptions.unbroken_summary {options : StageOptions}
    (h : ∀ text ∈ options.texts, Unbroken text) : Unbroken options.summary := by
  cases options with
  | aliasResolution entries extensions =>
    have hextensions : Unbroken (Text.joinWith " " extensions) := by
      apply unbroken_joinWith (by decide)
      intro text htext
      exact h text (List.mem_append_right _ htext)
    have hwords : Unbroken " aliases, extensions " := by decide
    simp [summary, hextensions, hwords]
  | envSubstitution replacements =>
    apply unbroken_joinWith (by decide)
    intro text htext
    obtain ⟨entry, hentry, rfl⟩ := List.mem_map.1 htext
    have hname : Unbroken entry.1 := h _ (List.mem_flatMap.2 ⟨entry, hentry, by simp⟩)
    have hvalue : Unbroken entry.2 := h _ (List.mem_flatMap.2 ⟨entry, hentry, by simp⟩)
    have hequals : Unbroken "=" := by decide
    simp [hname, hvalue, hequals]
  | componentCompilation options =>
    apply unbroken_joinWith (by decide)
    intro text htext
    rcases List.mem_cons.1 htext with rfl | hword
    · cases options.output <;> decide
    · obtain ⟨applies, hmem⟩ := mem_wordsThatApply hword
      simp only [List.mem_cons, Prod.mk.injEq, List.not_mem_nil, or_false] at hmem
      obtain ⟨-, rfl⟩ | ⟨-, rfl⟩ | ⟨-, rfl⟩ := hmem <;> decide
  | moduleResolution browser dedupe =>
    cases dedupe with
    | none => cases browser <;> decide
    | some package =>
      have hpackage : Unbroken package := h package (by simp [texts])
      have hdedupe : Unbroken ", dedupe " := by decide
      have hfields : Unbroken (if browser then "browser fields" else "default fields") := by
        cases browser <;> decide
      rw [summary, unbroken_append, unbroken_append]
      exact ⟨hfields, hdedupe, hpackage⟩
  | interopNormalization => decide
  | typedSource check => cases check <;> decide
  | legacyDownlevel options =>
    have hbrowsers : Unbroken options.browserslist := h _ (by simp [texts])
    have hwords : Unbroken "targets `" ∧ Unbroken "`" := by decide
    simp [summary, hbrowsers, hwords]
  | minification module => cases module <;> decide

theorem Stage.unbroken_markdownLine {stage : Stage}
    (h : ∀ text ∈ stage.options.texts, Unbroken text) : Unbroken stage.markdownLine := by
  have hsummary := StageOptions.unbroken_summary h
  have hkey := Outline.unbroken_key stage.id
  have hmarks : Unbroken ". " ∧ Unbroken ": " ∧ Unbroken "" := by decide
  by_cases hempty : stage.options.summary = ""
  · simp [markdownLine, hempty, hkey, hmarks]
  · simp [markdownLine, hempty, hkey, hmarks, hsummary]

theorem AliasEntry.unbroken_markdownLine {entry : AliasEntry}
    (h : ∀ text ∈ entry.texts, Unbroken text) : Unbroken entry.markdownLine := by
  have hname : Unbroken entry.name := h _ (by simp [texts])
  have hpath : Unbroken entry.path := h _ (by simp [texts])
  have hmarks : Unbroken "- " ∧ Unbroken " → " := by decide
  simp [markdownLine, hname, hpath, hmarks]

-- ════════════════════════════════════════════════════════════════════════
-- The lines of a pipeline
-- ════════════════════════════════════════════════════════════════════════

/-- The line is no heading, no item and does not count the targets. -/
structure Lines.IsNote (line : String) : Prop where
  heading : isHeading line = false
  item : isItem line = false
  counts : beginsWith "- Targets: " line = false

theorem Lines.isNote_iff {line : String} : IsNote line ↔
    "### ".toList.isPrefixOf line.toList = false ∧ line.toList.head?.any Char.isDigit = false ∧
      "- Targets: ".toList.isPrefixOf line.toList = false :=
  ⟨fun h => ⟨h.heading, h.item, h.counts⟩, fun h => ⟨h.1, h.2.1, h.2.2⟩⟩

theorem Lines.isNote_empty : IsNote "" :=
  ⟨by decide, by decide, by decide⟩

namespace Stage

theorem markdownLine_eq (stage : Stage) : stage.markdownLine =
    stage.ordinal.toNat.repr ++ ". `" ++ stage.id.key ++ "`" ++
      if stage.options.summary = "" then "" else ": " ++ stage.options.summary := by
  have hmarks : ". `" = ". " ++ "`" := by decide
  rw [markdownLine, inCode, hmarks]
  simp only [String.append_assoc]

/-- The line of a stage begins with the first digit of its number. -/
theorem exists_markdownLine_eq (stage : Stage) :
    ∃ c cs, stage.markdownLine.toList = c :: cs ∧ c.isDigit = true := by
  obtain ⟨tail, hline⟩ : ∃ tail, stage.markdownLine = stage.ordinal.toNat.repr ++ tail :=
    ⟨_, by rw [markdownLine, String.append_assoc, String.append_assoc]⟩
  cases hdigits : Nat.toDigits 10 stage.ordinal.toNat with
  | nil => exact absurd hdigits Nat.toDigits_ne_nil
  | cons c digits =>
    refine ⟨c, digits ++ tail.toList, ?_, ?_⟩
    · rw [hline, String.toList_append, Nat.toList_repr, hdigits, List.cons_append]
    · exact Nat.isDigit_of_mem_toDigits (by decide) (by decide) (hdigits ▸ List.mem_cons_self)

theorem isItem_markdownLine (stage : Stage) : Lines.isItem stage.markdownLine = true := by
  obtain ⟨c, cs, hline, hdigit⟩ := exists_markdownLine_eq stage
  rw [Lines.isItem, hline]
  exact hdigit

/-- A word whose first character is no digit does not begin the line of a stage. -/
theorem beginsWith_markdownLine {word : String}
    (hword : word.toList.head?.any (fun c => !c.isDigit) = true) (stage : Stage) :
    Lines.beginsWith word stage.markdownLine = false := by
  obtain ⟨c, cs, hline, hdigit⟩ := exists_markdownLine_eq stage
  cases hfirst : word.toList with
  | nil => simp [hfirst] at hword
  | cons first rest =>
    have hne : first ≠ c := by
      rintro rfl
      simp [hfirst, hdigit] at hword
    rw [Lines.beginsWith, hfirst, hline, List.isPrefixOf, beq_false_of_ne hne, Bool.false_and]

/-- The key of a stage is read off its line. -/
theorem codeIn_markdownLine (stage : Stage) : Lines.codeIn stage.markdownLine = stage.id.key := by
  have hkey : '\x60' ∉ stage.id.key.toList := by
    cases stage.id <;> decide
  have hnumber : '\x60' ∉ (stage.ordinal.toNat.repr ++ ". ").toList := by
    rw [String.toList_append, Nat.toList_repr, List.mem_append]
    rintro (hmem | hmem)
    · have hdigit := Nat.isDigit_of_mem_toDigits (by decide) (by decide) hmem
      revert hdigit
      decide
    · revert hmem
      decide
  exact Lines.codeIn_append hnumber hkey _

end Stage

namespace Pipeline

/-- The lines between the heading of a pipeline and its first item. -/
def notes (pipeline : Pipeline) : List String :=
  "" :: ((pipeline.entry.map fun entry =>
    "- Entry: " ++ inCode entry.input ++ " → " ++ inCode entry.output).toList ++
  ["- Suppressed diagnostics: " ++ inCode pipeline.diagnostics.code ++ " inside " ++
    inCode pipeline.diagnostics.namespaceName] ++
  (if pipeline.externals.isEmpty then []
    else ["- External: " ++ Text.joinWith ", " pipeline.externals.names]) ++ [""])

/-- The lines of a pipeline as a section of the document. -/
def part (pipeline : Pipeline) : DocumentSection where
  heading := "### " ++ pipeline.target.name
  body := pipeline.notes ++ pipeline.stages.map Stage.markdownLine ++ [""]

theorem lines_part (pipeline : Pipeline) : pipeline.part.lines = pipeline.markdownLines := by
  simp [part, DocumentSection.lines, markdownLines, notes]

theorem forall_mem_notes {p : String → Prop} {pipeline : Pipeline} (hempty : p "")
    (hentry : ∀ entry ∈ pipeline.entry,
      p ("- Entry: " ++ inCode entry.input ++ " → " ++ inCode entry.output))
    (hdiagnostics : p ("- Suppressed diagnostics: " ++ inCode pipeline.diagnostics.code ++
      " inside " ++ inCode pipeline.diagnostics.namespaceName))
    (hexternals : p ("- External: " ++ Text.joinWith ", " pipeline.externals.names)) :
    ∀ line ∈ pipeline.notes, p line := by
  simp only [notes, List.forall_mem_cons, List.forall_mem_append]
  refine ⟨hempty, ⟨⟨?_, hdiagnostics, by simp⟩, ?_⟩, hempty, by simp⟩
  · intro line hline
    obtain ⟨entry, hmem, rfl⟩ := Option.map_eq_some_iff.1 (Option.mem_toList.1 hline)
    exact hentry entry hmem
  · split
    · simp
    · simpa using hexternals

theorem unbroken_notes {pipeline : Pipeline} (h : ∀ text ∈ pipeline.texts, Unbroken text) :
    ∀ line ∈ pipeline.notes, Unbroken line := by
  have hcode : Unbroken pipeline.diagnostics.code := h _ (by simp [texts])
  have hnamespace : Unbroken pipeline.diagnostics.namespaceName := h _ (by simp [texts])
  have hnames : Unbroken (Text.joinWith ", " pipeline.externals.names) := by
    apply unbroken_joinWith (by decide)
    intro text htext
    exact h text (by simp [texts, htext])
  have hmarks : Unbroken "- Entry: " ∧ Unbroken " → " ∧ Unbroken "- Suppressed diagnostics: " ∧
    Unbroken " inside " ∧ Unbroken "- External: " := by decide
  refine forall_mem_notes (p := Unbroken) (by decide) ?_ ?_ ?_
  · intro entry hmem
    have hinput : Unbroken entry.input := h _ (by simp [texts, Option.mem_def.1 hmem])
    have houtput : Unbroken entry.output := h _ (by simp [texts, Option.mem_def.1 hmem])
    simp [hmarks, hinput, houtput]
  · simp [hmarks, hcode, hnamespace]
  · simp [hmarks, hnames]

theorem isNote_notes (pipeline : Pipeline) : ∀ line ∈ pipeline.notes, Lines.IsNote line := by
  apply forall_mem_notes Lines.isNote_empty
  · intro entry _
    simp [Lines.isNote_iff, List.isPrefixOf]
  · simp [Lines.isNote_iff, List.isPrefixOf]
  · simp [Lines.isNote_iff, List.isPrefixOf]

theorem unbroken_markdownLines {pipeline : Pipeline}
    (h : ∀ text ∈ pipeline.texts, Unbroken text) :
    ∀ line ∈ pipeline.markdownLines, Unbroken line := by
  have hheading : Unbroken pipeline.part.heading :=
    unbroken_append.2 ⟨by decide, Outline.unbroken_name pipeline.target⟩
  have hstages : ∀ line ∈ pipeline.stages.map Stage.markdownLine, Unbroken line := by
    intro line hline
    obtain ⟨stage, hstage, rfl⟩ := List.mem_map.1 hline
    apply Stage.unbroken_markdownLine
    intro text htext
    have hmem : text ∈ pipeline.stages.flatMap fun stage => stage.options.texts :=
      List.mem_flatMap.2 ⟨stage, hstage, htext⟩
    exact h text (by simp only [texts, List.mem_append, hmem, or_true, true_or])
  rw [← lines_part, DocumentSection.lines, part]
  simp only [List.forall_mem_cons, List.forall_mem_append]
  exact ⟨hheading, ⟨unbroken_notes h, hstages⟩, by decide, by simp⟩

theorem wellFormed_part (pipeline : Pipeline) : pipeline.part.WellFormed where
  heading := by simp [part, Lines.isHeading, Lines.beginsWith, List.isPrefixOf]
  body := by
    simp only [part, List.forall_mem_append, List.forall_mem_map, List.forall_mem_singleton]
    refine ⟨⟨fun line hline => (pipeline.isNote_notes line hline).heading, ?_⟩, by decide⟩
    intro stage _
    exact Stage.beginsWith_markdownLine (by decide) stage

theorem items_part (pipeline : Pipeline) :
    pipeline.part.items = pipeline.stages.map Stage.markdownLine := by
  have hnotes : pipeline.notes.filter Lines.isItem = [] := by
    rw [List.filter_eq_nil_iff]
    intro line hline
    simp [(pipeline.isNote_notes line hline).item]
  have hstages : (pipeline.stages.map Stage.markdownLine).filter Lines.isItem =
      pipeline.stages.map Stage.markdownLine := by
    rw [List.filter_eq_self]
    intro line hline
    obtain ⟨stage, -, rfl⟩ := List.mem_map.1 hline
    exact stage.isItem_markdownLine
  have hend : [""].filter Lines.isItem = [] := by decide
  simp only [DocumentSection.items, part, List.filter_append, hnotes, hstages, hend,
    List.nil_append, List.append_nil]

theorem counts_part (pipeline : Pipeline) :
    ∀ line ∈ pipeline.part.lines, Lines.beginsWith "- Targets: " line = false := by
  simp only [part, DocumentSection.lines, List.forall_mem_cons, List.forall_mem_append,
    List.forall_mem_map]
  refine ⟨?_, ⟨fun line hline => (pipeline.isNote_notes line hline).counts, ?_⟩, by decide, by simp⟩
  · simp [Lines.beginsWith, List.isPrefixOf]
  · intro stage _
    exact Stage.beginsWith_markdownLine (by decide) stage

end Pipeline

-- ════════════════════════════════════════════════════════════════════════
-- The lines of a plan
-- ════════════════════════════════════════════════════════════════════════

namespace DocumentSection

/-- What a heading and the items below it tell: a target and its stages. -/
def readLines? (heading : String) (items : List String) : Option (Target × List StageId) := do
  return (← Target.ofName? (String.ofList (heading.toList.drop 4)),
    ← items.mapM fun line => StageId.ofKey? (Lines.codeIn line))

def read? (part : DocumentSection) : Option (Target × List StageId) :=
  readLines? part.heading part.items

theorem readLines?_pipeline (pipeline : Pipeline) :
    readLines? ("### " ++ pipeline.target.name) (pipeline.stages.map Stage.markdownLine) =
      some (pipeline.target, pipeline.stageIds) := by
  have hname : (("### " ++ pipeline.target.name).toList.drop 4) = pipeline.target.name.toList := by
    simp
  have hstages : (pipeline.stages.map Stage.markdownLine).mapM
      (fun line => StageId.ofKey? (Lines.codeIn line)) = some pipeline.stageIds := by
    apply Traversal.mapM_map_of_forall
    intro stage
    rw [stage.codeIn_markdownLine, StageId.ofKey?_key]
  rw [readLines?, hname, String.ofList_toList, Target.ofName?_name, hstages]
  rfl

end DocumentSection

namespace Plan

/-- The lines of a document before the one that counts the targets. -/
def opening (plan : Plan) : List String :=
  ["# bundleplan plan", "",
    "- Mode: " ++ inCode plan.env.mode.name,
    "- Legacy build: " ++ flagInCode plan.env.legacyBuild,
    "- Typescript: " ++ flagInCode plan.env.typescript]

def countsLine (plan : Plan) : String :=
  "- Targets: " ++ plan.pipelines.values.length.repr ++
    " (" ++ plan.totalStages.repr ++ " stages)"

/-- The lines between the one that counts the targets and the first heading of a pipeline. -/
def preface (plan : Plan) : List String :=
  ["", "## Aliases", ""] ++
  (if plan.aliases.isEmpty then ["_No aliases._"] else plan.aliases.map AliasEntry.markdownLine) ++
  ["", "## Targets", ""] ++
  (if plan.pipelines.values.isEmpty then ["_No targets planned._"] else [])

theorem markdownLines_eq (plan : Plan) : plan.markdownLines =
    plan.opening ++ plan.countsLine :: (plan.preface ++
      (plan.pipelines.values.map Pipeline.part).flatMap DocumentSection.lines) := by
  have hparts : (plan.pipelines.values.map Pipeline.part).flatMap DocumentSection.lines =
      plan.pipelines.values.flatMap Pipeline.markdownLines := by
    rw [List.flatMap_map]
    exact List.flatMap_congr fun pipeline _ => pipeline.lines_part
  rw [hparts, markdownLines, opening, countsLine, preface]
  cases plan.pipelines.values <;> simp

theorem forall_mem_opening {p : String → Prop} {plan : Plan} (htitle : p "# bundleplan plan")
    (hempty : p "") (hmode : p ("- Mode: " ++ inCode plan.env.mode.name))
    (hlegacy : p ("- Legacy build: " ++ flagInCode plan.env.legacyBuild))
    (htypes : p ("- Typescript: " ++ flagInCode plan.env.typescript)) :
    ∀ line ∈ plan.opening, p line := by
  simp only [opening, List.forall_mem_cons]
  exact ⟨htitle, hempty, hmode, hlegacy, htypes, by simp⟩

theorem forall_mem_preface {p : String → Prop} {plan : Plan} (hempty : p "")
    (htitles : p "## Aliases" ∧ p "## Targets") (hnone : p "_No aliases._" ∧ p "_No targets planned._")
    (haliases : ∀ entry ∈ plan.aliases, p entry.markdownLine) : ∀ line ∈ plan.preface, p line := by
  simp only [preface, List.forall_mem_append, List.forall_mem_cons]
  refine ⟨⟨⟨⟨hempty, htitles.1, hempty, by simp⟩, ?_⟩, hempty, htitles.2, hempty, by simp⟩, ?_⟩
  · split
    · simpa using hnone.1
    · simpa using haliases
  · split
    · simpa using hnone.2
    · simp

theorem isNote_opening (plan : Plan) : ∀ line ∈ plan.opening, Lines.IsNote line := by
  refine forall_mem_opening ?_ Lines.isNote_empty ?_ ?_ ?_
  all_goals simp [Lines.isNote_iff, List.isPrefixOf]

theorem isNote_preface (plan : Plan) : ∀ line ∈ plan.preface, Lines.IsNote line := by
  refine forall_mem_preface Lines.isNote_empty ?_ ?_ ?_
  · simp [Lines.isNote_iff, List.isPrefixOf]
  · simp [Lines.isNote_iff, List.isPrefixOf]
  · intro entry _
    simp [Lines.isNote_iff, List.isPrefixOf, AliasEntry.markdownLine, inCode]

theorem unbroken_markdownLines {plan : Plan} (h : ∀ text ∈ plan.texts, Unbroken text) :
    ∀ line ∈ plan.markdownLines, Unbroken line := by
  have hmarks : Unbroken "- Mode: " ∧ Unbroken "- Legacy build: " ∧ Unbroken "- Typescript: " ∧
    Unbroken "- Targets: " ∧ Unbroken " (" ∧ Unbroken " stages)" := by decide
  have hopening : ∀ line ∈ plan.opening, Unbroken line := by
    refine forall_mem_opening (p := Unbroken) (by decide) (by decide) ?_ ?_ ?_
    · simp [hmarks, Mode.unbroken_name]
    · simp [hmarks, unbroken_flagInCode]
    · simp [hmarks, unbroken_flagInCode]
  have hcounts : Unbroken plan.countsLine := by simp [countsLine, hmarks]
  have hpreface : ∀ line ∈ plan.preface, Unbroken line := by
    refine forall_mem_preface (p := Unbroken) (by decide) (by decide) (by decide) ?_
    intro entry hentry
    apply AliasEntry.unbroken_markdownLine
    intro text htext
    have hmem : text ∈ plan.aliases.flatMap AliasEntry.texts :=
      List.mem_flatMap.2 ⟨entry, hentry, htext⟩
    exact h text (List.mem_cons_of_mem _ (List.mem_append_left _ hmem))
  have hparts : ∀ part ∈ plan.pipelines.values.map Pipeline.part, ∀ line ∈ part.lines,
      Unbroken line := by
    intro part hpart
    obtain ⟨pipeline, hpipeline, rfl⟩ := List.mem_map.1 hpart
    rw [pipeline.lines_part]
    apply Pipeline.unbroken_markdownLines
    intro text htext
    have hmem : text ∈ plan.pipelines.values.flatMap Pipeline.texts :=
      List.mem_flatMap.2 ⟨pipeline, hpipeline, htext⟩
    exact h text (List.mem_cons_of_mem _ (List.mem_append_right _ hmem))
  rw [markdownLines_eq]
  simp only [List.forall_mem_append, List.forall_mem_cons, List.mem_flatMap]
  refine ⟨hopening, hcounts, hpreface, ?_⟩
  rintro line ⟨part, hpart, hline⟩
  exact hparts part hpart line hline

/-- The lines of a document, between its line feeds; nothing stands behind the last one. -/
theorem splitAt_markdown {plan : Plan} (h : ∀ text ∈ plan.texts, Unbroken text) :
    Text.splitAt '\n' plan.markdown = plan.opening ++ plan.countsLine :: (plan.preface ++
      ((plan.pipelines.values.map Pipeline.part).flatMap DocumentSection.lines ++ [""])) := by
  rw [markdown, Text.splitAt_unlines (unbroken_markdownLines h), markdownLines_eq]
  simp only [List.append_assoc, List.cons_append]

/-- The headings and items of a document are those of the pipelines and their stages. -/
theorem sections_markdown {plan : Plan} (h : ∀ text ∈ plan.texts, Unbroken text) :
    (Lines.sections (Text.splitAt '\n' plan.markdown)).map (fun part => (part.heading, part.items)) =
      plan.pipelines.values.map fun pipeline =>
        ("### " ++ pipeline.target.name, pipeline.stages.map Stage.markdownLine) := by
  have hopening : ∀ line ∈ plan.opening, Lines.isHeading line = false := fun line hline =>
    (plan.isNote_opening line hline).heading
  have hcounts : Lines.isHeading plan.countsLine = false := by
    simp [countsLine, Lines.isHeading, Lines.beginsWith, List.isPrefixOf]
  have hpreface : ∀ line ∈ plan.preface, Lines.isHeading line = false := fun line hline =>
    (plan.isNote_preface line hline).heading
  have hparts : ∀ part ∈ plan.pipelines.values.map Pipeline.part, part.WellFormed := by
    intro part hpart
    obtain ⟨pipeline, -, rfl⟩ := List.mem_map.1 hpart
    exact pipeline.wellFormed_part
  rw [splitAt_markdown h, Lines.sections_append hopening, Lines.sections,
    if_neg (by simp [hcounts]), Lines.sections_append hpreface,
    Lines.sections_of_blocks hparts (by decide), List.map_map]
  apply List.map_congr_left
  intro pipeline _
  rw [Function.comp_apply, pipeline.items_part]
  rfl

/-- One line counts the targets, and nothing else is taken for it. -/
theorem counts_markdown {plan : Plan} (h : ∀ text ∈ plan.texts, Unbroken text) :
    (Text.splitAt '\n' plan.markdown).filter (Lines.beginsWith "- Targets: ") =
      [plan.countsLine] := by
  have hopening : plan.opening.filter (Lines.beginsWith "- Targets: ") = [] := by
    rw [List.filter_eq_nil_iff]
    intro line hline
    simp [(plan.isNote_opening line hline).counts]
  have hpreface : plan.preface.filter (Lines.beginsWith "- Targets: ") = [] := by
    rw [List.filter_eq_nil_iff]
    intro line hline
    simp [(plan.isNote_preface line hline).counts]
  have hparts : ((plan.pipelines.values.map Pipeline.part).flatMap DocumentSection.lines).filter
      (Lines.beginsWith "- Targets: ") = [] := by
    rw [List.filter_eq_nil_iff]
    intro line hline
    obtain ⟨part, hpart, hmem⟩ := List.mem_flatMap.1 hline
    obtain ⟨pipeline, -, rfl⟩ := List.mem_map.1 hpart
    simp [pipeline.counts_part line hmem]
  have hcounts : Lines.beginsWith "- Targets: " plan.countsLine = true := by
    simp [countsLine, Lines.beginsWith, List.isPrefixOf]
  have hend : [""].filter (Lines.beginsWith "- Targets: ") = [] := by decide
  rw [splitAt_markdown h, List.filter_append, hopening, List.filter_cons_of_pos hcounts,
    List.filter_append, hpreface, List.filter_append, hparts, hend]
  rfl

theorem read?_sections {plan : Plan} (h : ∀ text ∈ plan.texts, Unbroken text) :
    (Lines.sections (Text.splitAt '\n' plan.markdown)).mapM DocumentSection.read? =
      some plan.scheduled := by
  have hread : (DocumentSection.read? : DocumentSection → _) =
      (fun entry => DocumentSection.readLines? entry.1 entry.2) ∘
        fun part => (part.heading, part.items) := rfl
  rw [hread, ← List.mapM_map, sections_markdown h,
    Traversal.mapM_map_of_forall DocumentSection.readLines?_pipeline, scheduled]

/-- The counts line has the number of items. -/
theorem length_items_markdown {plan : Plan} (h : ∀ text ∈ plan.texts, Unbroken text) :
    ((Lines.sections (Text.splitAt '\n' plan.markdown)).flatMap DocumentSection.items).length =
      plan.totalStages := by
  have hitems := congrArg (List.map Prod.snd) (sections_markdown h)
  rw [List.map_map, List.map_map] at hitems
  have hflat : (Lines.sections (Text.splitAt '\n' plan.markdown)).flatMap DocumentSection.items =
      (plan.pipelines.values.flatMap Pipeline.stages).map Stage.markdownLine := by
    rw [List.map_flatMap, List.flatMap_def, List.flatMap_def]
    exact congrArg List.flatten hitems
  rw [hflat, List.length_map, totalStages]

/-- The document of a plan without line feeds has a heading for each pipeline, in target order, and
below it an item for each stage, in order: its number, its key and what its options amount to, if
that is anything. Read off these lines, the targets and stages are those of the outline. One line
counts the targets and the stages, and the counts are right. -/
theorem markdown_tells_outline {plan : Plan} (h : ∀ text ∈ plan.texts, Text.Unbroken text) :
    let lines := Text.splitAt '\n' plan.markdown
    let sections := Lines.sections lines
    lines.filter Lines.isHeading =
      (plan.pipelines.values.map fun pipeline => "### " ++ pipeline.target.name) ∧
    sections.map (fun part => (part.heading, part.items)) =
      (plan.pipelines.values.map fun pipeline =>
        ("### " ++ pipeline.target.name, pipeline.stages.map fun stage =>
          stage.ordinal.toNat.repr ++ ". `" ++ stage.id.key ++ "`" ++
            if stage.options.summary = "" then "" else ": " ++ stage.options.summary)) ∧
    sections.mapM DocumentSection.read? = some plan.scheduled ∧
    Outline.read? plan.outline = some plan.scheduled ∧
    lines.filter (Lines.beginsWith "- Targets: ") =
      ["- Targets: " ++ plan.pipelines.values.length.repr ++ " (" ++
        (sections.flatMap DocumentSection.items).length.repr ++ " stages)"] := by
  intro lines sections
  have hsections := sections_markdown h
  refine ⟨?_, ?_, read?_sections h, Outline.read?_outline plan, ?_⟩
  · have hheadings := congrArg (List.map Prod.fst) hsections
    rw [List.map_map, List.map_map] at hheadings
    rw [← Lines.map_heading_sections]
    exact hheadings
  · rw [hsections]
    apply List.map_congr_left
    intro pipeline _
    rw [Prod.mk.injEq]
    exact ⟨rfl, List.map_congr_left fun stage _ => stage.markdownLine_eq⟩
  · rw [counts_markdown h, length_items_markdown h, countsLine]

-- the names and paths of this plan look like headings, items and counts

def headedPlan : Plan where
  schema := currentSchema
  env := ⟨.production, true, true, false⟩
  aliases := [⟨"### server", "1. `minification`"⟩]
  pipelines := {
    client := some {
      target := .client
      entry := some ⟨"### server", "2. `minification`"⟩
      stages := [.ofOptions 1 (.aliasResolution [⟨"### server", "1. `minification`"⟩] ["### ", "7"]),
        .ofOptions 2 .interopNormalization]
      externals := .empty
      diagnostics := ⟨"- Targets: 9", "### client"⟩ }
    server := some {
      target := .server
      entry := none
      stages := [.ofOptions 10 (.legacyDownlevel ⟨["### "], true, [], "- Targets: 9", []⟩)]
      externals := .ofList ["### client", "1. `typed_source`"]
      diagnostics := .default } }

theorem markdown_tells_outline_headedPlan :
    (∀ text ∈ headedPlan.texts, Text.Unbroken text) ∧
    (Text.splitAt '\n' headedPlan.markdown).filter Lines.isHeading = ["### client", "### server"] ∧
    (Lines.sections (Text.splitAt '\n' headedPlan.markdown)).map DocumentSection.items =
      [["1. `alias_resolution`: 1 aliases, extensions ###  7", "2. `interop_normalization`"],
        ["10. `legacy_downlevel`: targets `- Targets: 9`"]] ∧
    Outline.read? headedPlan.outline =
      some [(.client, [.aliasResolution, .interopNormalization]), (.server, [.legacyDownlevel])] ∧
    (Text.splitAt '\n' headedPlan.markdown).filter (Lines.beginsWith "- Targets: ") =
      ["- Targets: 2 (3 stages)"] := by
  have htexts : ∀ text ∈ headedPlan.texts, Text.Unbroken text := by decide +kernel
  obtain ⟨hheadings, hsections, -, hread, hcounts⟩ := markdown_tells_outline htexts
  have hitems := congrArg (List.map Prod.snd) hsections
  rw [List.map_map] at hitems
  refine ⟨htexts, hheadings, hitems.trans ?_, hread, hcounts.trans ?_⟩
  · decide +kernel
  · rw [length_items_markdown htexts]
    decide +kernel

end Plan

end StagedBuild
