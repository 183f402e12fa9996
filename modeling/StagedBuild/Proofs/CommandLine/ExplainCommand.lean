import StagedBuild.Proofs.CommandLine.Runs
import StagedBuild.Proofs.Planning.Schedule
import StagedBuild.Proofs.Stage.KeySpelling

/-!
# The command that explains a stage

The command shows the page of the stage that its argument names. When the argument names none it fails
and prints nothing.

## Main results

* `Guide.condition_eq`: the guide knows for each stage when it is scheduled.
* `Request.parse_explain`, `Request.parse_explain_of_head`: how a command line gives the argument.
* `explainCommand_of_written`, `explainCommand_of_not_written`: the two outcomes.
* `explain_accepts_written_keys`: the texts that name a stage, and what the command makes of any text.
-/

namespace StagedBuild

/-- The default schedule knows all stages, so the words for any other are never shown. -/
theorem Guide.condition_eq (never : String) (id : StageId) : condition never id = id.rule := by
  rw [condition, Schedule.definition?_defaultStages, Option.map_some, Option.getD_some]

-- ════════════════════════════════════════════════════════════════════════
-- The argument
-- ════════════════════════════════════════════════════════════════════════

namespace Request

/-- After two dashes any text is the argument. -/
theorem parse_explain (shell : ShellVariables) (text : String) :
    parse shell ["explain", "--", text] = .ok (.explain text) := by
  rfl

/-- A text that does not begin with a dash needs none before it. -/
theorem parse_explain_of_head {text : String} (h : text.toList.head? ≠ some '-')
    (shell : ShellVariables) : parse shell ["explain", text] = .ok (.explain text) := by
  have hread : explainGrammar.read [text] = .ok ⟨[], [text]⟩ := by
    rw [CommandGrammar.read, CommandGrammar.readFrom]
    split
    · next hword => simp [hword] at h
    · next hword => simp [hword] at h
    · next hword => simp [hword] at h
    · next hword => simp [hword] at h
    · rfl
  have hcommand : parse shell ["explain", text] = parseCommand shell "explain" [text] := by
    rfl
  rw [hcommand, parseCommand, hread]
  rfl

end Request

-- ════════════════════════════════════════════════════════════════════════
-- The outcomes
-- ════════════════════════════════════════════════════════════════════════

section Outcomes

variable {text : String} {id : StageId}

theorem explainCommand_of_written (h : id.WrittenInAnyCase text) :
    explainCommand text = .ok (Guide.entryOf id).page := by
  -- finding an equation for the command would evaluate the guide
  delta explainCommand
  rw [Guide.lookup?_eq_some_iff.2 ⟨id, h, rfl⟩]

theorem explainCommand_of_not_written (h : ∀ id : StageId, ¬ id.WrittenInAnyCase text) :
    explainCommand text = .error (.unknownStage text) := by
  have hnone : Guide.lookup? text = none := by
    rw [Option.eq_none_iff_forall_ne_some]
    intro entry hentry
    obtain ⟨id, hid, -⟩ := Guide.lookup?_eq_some_iff.1 hentry
    exact h id hid
  delta explainCommand
  rw [hnone]

end Outcomes

/-- A text names a stage exactly if it is the stage's key with dashes for some of its underscores and
white space around it, so it names one stage at most, and a key names its own stage. The guide has an
entry for a text exactly if this holds of the text with its ASCII letters in lower case, which is to say
that capital letters of ASCII may stand for small ones and nothing else may. The entry, what the lowered
text names and what the default schedule holds for it are of one stage. Any text can be asked about. The
command shows the page of the stage; for a text that names none it prints nothing and the exit code
is 1. -/
theorem explain_accepts_written_keys [PatternCompiler] (text : String) :
    (∀ id, StageId.parse? text = some id ↔ id.WrittenIn text) ∧
    (∀ id other : StageId, id.WrittenIn text → other.WrittenIn text → id = other) ∧
    (∀ id : StageId, StageId.parse? id.key = some id) ∧
    ((Guide.lookup? text).isSome = true ↔
      ∃ id : StageId, id.WrittenIn (Guide.lowerAscii text)) ∧
    (∀ id : StageId, id.WrittenIn (Guide.lowerAscii text) ↔ id.WrittenInAnyCase text) ∧
    (∀ entry, Guide.lookup? text = some entry → entry ∈ Guide.entries ∧
      StageId.parse? (Guide.lowerAscii text) = some entry.id ∧
      Schedule.definition? Schedule.defaultStages entry.id = some entry.id) ∧
    (∀ shell, Request.parse shell ["explain", "--", text] = .ok (.explain text)) ∧
    (text.toList.head? ≠ some '-' →
      ∀ shell, Request.parse shell ["explain", text] = .ok (.explain text)) ∧
    ∀ words shell tree input, Request.parse shell words = .ok (.explain text) →
      (∀ id : StageId, id.WrittenInAnyCase text → runCommandLine words shell tree input =
        ⟨0, (Guide.entryOf id).page, none, tree⟩) ∧
      ((∀ id : StageId, ¬ id.WrittenInAnyCase text) → runCommandLine words shell tree input =
        ⟨1, "", some (.unknownStage text), tree⟩) := by
  refine ⟨fun _ => StageId.parse?_eq_some_iff, fun _ _ h hother => h.unique hother,
    fun id => StageId.parse?_eq_some_iff.2 id.writtenIn_key, ?_,
    fun _ => StageId.writtenIn_lowerAscii_iff, ?_, fun shell => Request.parse_explain shell text,
    fun h shell => Request.parse_explain_of_head h shell, ?_⟩
  · simp only [Option.isSome_iff_exists, Guide.lookup?_eq_some_iff, StageId.writtenIn_lowerAscii_iff]
    constructor
    · rintro ⟨_, id, hid, -⟩
      exact ⟨id, hid⟩
    · rintro ⟨id, hid⟩
      exact ⟨_, id, hid, rfl⟩
  · intro entry hentry
    obtain ⟨id, hid, rfl⟩ := Guide.lookup?_eq_some_iff.1 hentry
    exact ⟨List.mem_map_of_mem id.mem_all,
      StageId.parse?_eq_some_iff.2 (StageId.writtenIn_lowerAscii_iff.2 hid),
      Schedule.definition?_defaultStages id⟩
  · intro words shell tree input hparse
    constructor
    · intro id hid
      apply runCommandLine_of_ok hparse
      rw [Request.run, explainCommand_of_written hid]
    · intro hnone
      apply runCommandLine_of_error hparse
      rw [Request.run, explainCommand_of_not_written hnone]

/-- Capital letters, a dash and wide white space are understood. The long s, which other ways of folding
case take for the letter s, is not, nor is a space for an underscore. -/
theorem explain_spellings :
    StageId.legacyDownlevel.WrittenInAnyCase "\u3000Legacy-DownLevel\t" ∧
    (∃ entry, Guide.lookup? "\u3000Legacy-DownLevel\t" = some entry ∧
      StageId.parse? (Guide.lowerAscii "\u3000Legacy-DownLevel\t") = some entry.id) ∧
    runCommandLine ["explain", "\u3000Legacy-DownLevel\t"] {} (.standingAt []) "" =
      ⟨0, (Guide.entryOf .legacyDownlevel).page, none, .standingAt []⟩ ∧
    runCommandLine ["explain", "--", "alia\u017f_resolution"] {} (.standingAt []) "" =
      ⟨1, "", some (.unknownStage "alia\u017f_resolution"), .standingAt []⟩ ∧
    runCommandLine ["explain", "typed source"] {} (.standingAt []) "" =
      ⟨1, "", some (.unknownStage "typed source"), .standingAt []⟩ := by
  obtain ⟨-, -, -, hsome, hcase, hentry, -, hplain, hrun⟩ :=
    explain_accepts_written_keys "\u3000Legacy-DownLevel\t"
  have hwritten : StageId.legacyDownlevel.WrittenIn (Guide.lowerAscii "\u3000Legacy-DownLevel\t") := by
    decide +kernel
  obtain ⟨entry, hfound⟩ := Option.isSome_iff_exists.1 (hsome.2 ⟨_, hwritten⟩)
  have hunknown : ∀ text, (Guide.lookup? text).isSome = false →
      ∀ id : StageId, ¬ id.WrittenInAnyCase text := by
    intro text hnone id hid
    obtain ⟨-, -, -, hsome, hcase, -⟩ := explain_accepts_written_keys text
    rw [hsome.2 ⟨id, (hcase id).2 hid⟩] at hnone
    cases hnone
  obtain ⟨-, -, -, -, -, -, hdashes, -, hlong⟩ := explain_accepts_written_keys "alia\u017f_resolution"
  obtain ⟨-, -, -, -, -, -, -, hspaced, hspace⟩ := explain_accepts_written_keys "typed source"
  refine ⟨(hcase _).1 hwritten, ⟨entry, hfound, (hentry entry hfound).2.1⟩, ?_, ?_, ?_⟩
  · exact (hrun _ _ _ _ (hplain (by decide) {})).1 _ ((hcase _).1 hwritten)
  · exact (hlong _ _ _ _ (hdashes {})).2 (hunknown _ (by decide +kernel))
  · exact (hspace _ _ _ _ (hspaced (by decide) {})).2 (hunknown _ (by decide +kernel))

end StagedBuild
