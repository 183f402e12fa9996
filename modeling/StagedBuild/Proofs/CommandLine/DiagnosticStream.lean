import StagedBuild.Proofs.CommandLine.Runs
import StagedBuild.Proofs.Diagnostic.Suppression
import StagedBuild.Proofs.Json.OneLine
import StagedBuild.Proofs.Json.RoundTrip

/-!
# Diagnostics as a stream of lines

The command that filters diagnostics takes them one to a line and prints those that are shown in the
same way. What it prints it can take again, and then prints it unchanged. A line that is neither
blank nor a diagnostic makes it fail without printing anything.

## Main definitions

* `Malformed`: a line that is neither blank nor a diagnostic.
* `recordLines`: the lines of an input that are not blank.

## Main results

* `readDiagnostics_of_records`, `readDiagnostics_of_malformed`: what is read from lines.
* `records_unlines`: the diagnostics of a stream that was printed are those that were printed.
* `filterDiagnostics_stream`: what the command prints, and when it fails.
-/

namespace StagedBuild

/-- The line is neither blank nor a diagnostic. -/
def Malformed (line : String) : Prop :=
  Text.isBlankText line = false ∧ (Document.ofText? line : Option Diagnostic) = none

instance (line : String) : Decidable (Malformed line) :=
  inferInstanceAs (Decidable (_ ∧ _))

/-- The lines of an input that are not blank. -/
def recordLines (input : String) : List String :=
  (Text.lines input).filter fun line => !Text.isBlankText line

-- ════════════════════════════════════════════════════════════════════════
-- Reading lines
-- ════════════════════════════════════════════════════════════════════════

section Reading

variable {line : String} {rest lines : List String} {diagnostics : List Diagnostic}

theorem readDiagnostics_of_blank (number : Nat) (h : Text.isBlankText line = true) :
    readDiagnostics number (line :: rest) = readDiagnostics (number + 1) rest := by
  rw [readDiagnostics, if_pos h]

theorem readDiagnostics_of_diagnostic {diagnostic : Diagnostic} (number : Nat)
    (hblank : Text.isBlankText line = false) (h : Document.ofText? line = some diagnostic) :
    readDiagnostics number (line :: rest) =
      (diagnostic :: ·) <$> readDiagnostics (number + 1) rest := by
  rw [readDiagnostics, if_neg (by simp [hblank]), h]
  cases readDiagnostics (number + 1) rest <;> rfl

theorem readDiagnostics_of_malformed_head (number : Nat) (h : Malformed line) :
    readDiagnostics number (line :: rest) = .error (.malformedLine number) := by
  rw [readDiagnostics, if_neg (by simp [h.1]), h.2]

/-- A line that is not malformed is blank or a diagnostic. -/
theorem blank_or_diagnostic (h : ¬ Malformed line) : Text.isBlankText line = true ∨
    (Text.isBlankText line = false ∧ ∃ diagnostic : Diagnostic,
      Document.ofText? line = some diagnostic) := by
  cases hblank : Text.isBlankText line with
  | true => exact .inl rfl
  | false =>
    cases hread : (Document.ofText? line : Option Diagnostic) with
    | none => exact absurd ⟨hblank, hread⟩ h
    | some diagnostic => exact .inr ⟨rfl, diagnostic, rfl⟩

theorem readDiagnostics_of_records (number : Nat)
    (h : (lines.filter fun line => !Text.isBlankText line).map Document.ofText? =
      diagnostics.map some) : readDiagnostics number lines = .ok diagnostics := by
  induction lines generalizing number diagnostics with
  | nil =>
    obtain rfl : diagnostics = [] := by simpa using h.symm
    rfl
  | cons line rest ih =>
    cases hblank : Text.isBlankText line with
    | true =>
      rw [readDiagnostics_of_blank number hblank]
      exact ih (number + 1) (by simpa [hblank] using h)
    | false =>
      cases diagnostics with
      | nil => simp [hblank] at h
      | cons diagnostic others =>
        obtain ⟨hread, hrest⟩ : Document.ofText? line = some diagnostic ∧
            (rest.filter fun line => !Text.isBlankText line).map Document.ofText? =
              others.map some := by
          simpa [hblank] using h
        rw [readDiagnostics_of_diagnostic number hblank hread, ih (number + 1) hrest]
        rfl

/-- The first malformed line is reported with its number, whatever comes after it. -/
theorem readDiagnostics_of_malformed {before after : List String} (number : Nat)
    (hbefore : ∀ earlier ∈ before, ¬ Malformed earlier) (h : Malformed line) :
    readDiagnostics number (before ++ line :: after) =
      .error (.malformedLine (number + before.length)) := by
  induction before generalizing number with
  | nil => exact readDiagnostics_of_malformed_head number h
  | cons earlier before ih =>
    simp only [List.forall_mem_cons] at hbefore
    have hrest := ih (number + 1) hbefore.2
    rw [Nat.add_right_comm, Nat.add_assoc, ← List.length_cons] at hrest
    obtain hblank | ⟨hblank, diagnostic, hread⟩ := blank_or_diagnostic hbefore.1
    · rw [List.cons_append, readDiagnostics_of_blank number hblank, hrest]
    · rw [List.cons_append, readDiagnostics_of_diagnostic number hblank hread, hrest]
      rfl

end Reading

-- ════════════════════════════════════════════════════════════════════════
-- Printing lines
-- ════════════════════════════════════════════════════════════════════════

theorem printable_text (diagnostic : Diagnostic) :
    Json.Printable (Document.text diagnostic).toList :=
  Json.printable_compact (Document.toJson diagnostic)

theorem text_not_blank (diagnostic : Diagnostic) :
    Text.isBlankText (Document.text diagnostic) = false := by
  obtain ⟨rest, htext⟩ : ∃ rest, (Document.text diagnostic).toList = '\x7b' :: rest :=
    ⟨_, String.toList_ofList⟩
  have hbrace : Text.isBlank '\x7b' = false := by decide
  rw [Text.isBlankText, htext, List.all_cons, hbrace, Bool.false_and]

theorem recordLines_unlines (diagnostics : List Diagnostic) :
    recordLines (Text.unlines (diagnostics.map Document.text)) = diagnostics.map Document.text := by
  have hfits : ∀ text ∈ diagnostics.map Document.text, Text.FitsLine text := by
    intro text htext
    obtain ⟨diagnostic, -, rfl⟩ := List.mem_map.1 htext
    exact (printable_text diagnostic).fitsLine
  rw [recordLines, Text.lines_unlines hfits, List.filter_eq_self]
  intro text htext
  obtain ⟨diagnostic, -, rfl⟩ := List.mem_map.1 htext
  rw [text_not_blank, Bool.not_false]

/-- The diagnostics of a stream that was printed are those that were printed. -/
theorem records_unlines (diagnostics : List Diagnostic) :
    (recordLines (Text.unlines (diagnostics.map Document.text))).map Document.ofText? =
      diagnostics.map some := by
  have hdepth : 1 ≤ Json.nestingLimit := by decide
  have hround : Document.RoundTrips Diagnostic := Document.exact_diagnostic.roundTrips hdepth
  rw [recordLines_unlines, List.map_map]
  apply List.map_congr_left
  intro diagnostic _
  rw [Function.comp_apply, hround.ofText?_text]

-- ════════════════════════════════════════════════════════════════════════
-- The command
-- ════════════════════════════════════════════════════════════════════════

section Command

variable [PatternCompiler] {words : List String} {shell : ShellVariables} {tree : FileTree}
  {root : String} {project : Project} {filter : DiagnosticFilter}

theorem filterCommand_eq (hproject : Project.load tree root = .ok project)
    (hfilter : project.settings.diagnosticFilter = .ok filter) (input : String) :
    filterCommand tree root input =
      (readDiagnostics 1 (Text.lines input)).map fun diagnostics =>
        Text.unlines ((filter.forward diagnostics).map Document.text) := by
  rw [filterCommand, hproject]
  show (project.settings.diagnosticFilter.mapError CommandFailure.build).bind _ = _
  rw [hfilter]
  show (readDiagnostics 1 (Text.lines input)).bind _ = _
  cases readDiagnostics 1 (Text.lines input) <;> rfl

theorem filterDiagnostics_of_records
    (hparse : Request.parse shell words = .ok (.filterDiagnostics root))
    (hproject : Project.load tree root = .ok project)
    (hfilter : project.settings.diagnosticFilter = .ok filter) {input : String}
    {diagnostics : List Diagnostic}
    (h : (recordLines input).map Document.ofText? = diagnostics.map some) :
    runCommandLine words shell tree input =
      ⟨0, Text.unlines ((filter.forward diagnostics).map Document.text), none, tree⟩ := by
  apply runCommandLine_of_ok hparse
  rw [Request.run, filterCommand_eq hproject hfilter, readDiagnostics_of_records 1 h]
  rfl

end Command

/-- When every line of the input is blank or a diagnostic, the command prints the diagnostics that
the filter shows, in their order, each as its compact text and a line feed. These texts hold no
control character of JSON, that is none below U+0020, and when the output is the input, it is
printed again as it is. Otherwise the command prints nothing and reports the number of the first
line that is malformed. In either case the files stay as they are. -/
theorem filterDiagnostics_stream [PatternCompiler] {words : List String} {shell : ShellVariables}
    {tree : FileTree} {root : String} {project : Project} {filter : DiagnosticFilter}
    (hparse : Request.parse shell words = .ok (.filterDiagnostics root))
    (hproject : Project.load tree root = .ok project)
    (hfilter : project.settings.diagnosticFilter = .ok filter) (input : String) :
    let run := runCommandLine words shell tree
    ((∀ line ∈ Text.lines input, ¬ Malformed line) → ∃ diagnostics : List Diagnostic,
      (recordLines input).map Document.ofText? = diagnostics.map some ∧
      let shown := diagnostics.filter fun diagnostic => !filter.suppresses diagnostic
      let output := String.join (shown.map fun diagnostic => Document.text diagnostic ++ "\n")
      run input = ⟨0, output, none, tree⟩ ∧
      (∀ diagnostic ∈ shown, ∀ c ∈ (Document.text diagnostic).toList, 0x20 ≤ c.toNat) ∧
      run output = ⟨0, output, none, tree⟩) ∧
    ((∃ line ∈ Text.lines input, Malformed line) → ∃ before line after,
      Text.lines input = before ++ line :: after ∧ (∀ earlier ∈ before, ¬ Malformed earlier) ∧
      Malformed line ∧
      run input = ⟨1, "", some (.malformedLine (before.length + 1)), tree⟩ ∧
      (run input).failure.map CommandFailure.message =
        some ("parse diagnostic on line " ++ (before.length + 1).repr)) := by
  intro run
  constructor
  · intro hlines
    obtain ⟨diagnostics, hread⟩ : ∃ diagnostics : List Diagnostic,
        (recordLines input).map Document.ofText? = diagnostics.map some := by
      apply Traversal.exists_map_eq
      intro line hline
      obtain ⟨hmem, hnotblank⟩ := List.mem_filter.1 hline
      obtain hblank | ⟨-, diagnostic, hdiagnostic⟩ := blank_or_diagnostic (hlines line hmem)
      · simp [hblank] at hnotblank
      · exact ⟨diagnostic, hdiagnostic⟩
    have houtput : Text.unlines ((filter.forward diagnostics).map Document.text) =
        String.join ((filter.forward diagnostics).map fun diagnostic =>
          Document.text diagnostic ++ "\n") := by
      rw [Text.unlines, List.map_map]
      rfl
    have hagain := filterDiagnostics_of_records hparse hproject hfilter
      (records_unlines (filter.forward diagnostics))
    rw [filter.forward_forward, houtput] at hagain
    refine ⟨diagnostics, hread, ?_, fun diagnostic _ => printable_text diagnostic, hagain⟩
    rw [← DiagnosticFilter.forward, ← houtput]
    exact filterDiagnostics_of_records hparse hproject hfilter hread
  · intro hmalformed
    obtain ⟨before, line, after, hsplit, hbefore, hline⟩ := Traversal.exists_first hmalformed
    have hrun : run input = ⟨1, "", some (.malformedLine (before.length + 1)), tree⟩ := by
      apply runCommandLine_of_error hparse
      rw [Request.run, filterCommand_eq hproject hfilter, hsplit,
        readDiagnostics_of_malformed 1 hbefore hline, Nat.add_comm]
      rfl
    exact ⟨before, line, after, hsplit, hbefore, hline, hrun, by rw [hrun]; rfl⟩

-- a project without any files, a cycle inside the framework, a blank line and another warning

def emptyProject : FileTree := .standingAt ["app"]

def mixedStream : String :=
  "\x7b\"code\":\"CIRCULAR_DEPENDENCY\",\"message\":\"/node_modules/@sapper/a.js\"\x7d\r\n" ++
    " \u3000\n[\"UNUSED\",\"one\\ntwo\"]"

def shownStream : String :=
  "\x7b\"code\":\"UNUSED\",\"message\":\"one\\ntwo\"\x7d\n"

/-- The cycle is kept back, and what is shown is shown again. -/
theorem filterDiagnostics_mixedStream :
    Request.parse {} ["filter-diagnostics"] = .ok (.filterDiagnostics ".") ∧
    Project.load emptyProject "." = .ok ⟨"/app", .forRoot "/app", {}⟩ ∧
    (Settings.forRoot "/app").diagnosticFilter = .ok ⟨.default⟩ ∧
    runCommandLine ["filter-diagnostics"] {} emptyProject mixedStream =
      ⟨0, shownStream, none, emptyProject⟩ ∧
    runCommandLine ["filter-diagnostics"] {} emptyProject shownStream =
      ⟨0, shownStream, none, emptyProject⟩ := by
  have hparse : Request.parse {} ["filter-diagnostics"] = .ok (.filterDiagnostics ".") := by rfl
  have hpath : emptyProject.canonical? "." = some "/app" := by decide +kernel
  have hproject : Project.load emptyProject "." = .ok ⟨"/app", .forRoot "/app", {}⟩ :=
    Project.load_eq hpath (by decide +kernel) (by rfl)
  have hnamespace : DiagnosticFilter.Searchable DiagnosticPolicy.defaultNamespace := by
    decide +kernel
  have hfilter : (Settings.forRoot "/app").diagnosticFilter = .ok ⟨.default⟩ :=
    DiagnosticFilter.ofPolicy_of_searchable hnamespace
  have hrecords : (recordLines mixedStream).map Document.ofText? =
      [(⟨"CIRCULAR_DEPENDENCY", "/node_modules/@sapper/a.js"⟩ : Diagnostic),
        ⟨"UNUSED", "one\ntwo"⟩].map some := by decide +kernel
  obtain ⟨diagnostics, hread, hrun, -, hagain⟩ :=
    (filterDiagnostics_stream hparse hproject hfilter mixedStream).1 (by decide +kernel)
  obtain rfl := (List.map_inj_right fun _ _ => Option.some.inj).1 (hread.symm.trans hrecords)
  have hshown : String.join
      (([⟨"CIRCULAR_DEPENDENCY", "/node_modules/@sapper/a.js"⟩, ⟨"UNUSED", "one\ntwo"⟩].filter
        fun diagnostic => !(⟨.default⟩ : DiagnosticFilter).suppresses diagnostic).map
          fun diagnostic => Document.text diagnostic ++ "\n") = shownStream := by
    decide +kernel
  rw [hshown] at hrun hagain
  exact ⟨hparse, hproject, hfilter, hrun, hagain⟩

end StagedBuild
