import StagedBuild.Proofs.Alias.Registration
import StagedBuild.Proofs.Text.SegmentPrefix

/-!
# A table that is registered with call by call

Whoever keeps a table calls `register` again and again, and some of the calls are refused. A refused
call leaves the table as it is; any other puts its entry behind those that are there. So the table
is sound at every point, and it is the table that its own entries make.

## Main definitions

* `AliasTable.RegistrationRun`: the table after some calls, and what each call led to.
* `AliasTable.registerAll`: the run of a list of calls.

## Main results

* `AliasTable.register_eq_ok_iff`, `AliasTable.register_eq_error_iff`: the two outcomes of a call.
* `AliasTable.registerAll_append`: a run goes on from the table that it has reached.
* `AliasTable.candidates_of_matched`: a new entry takes no specifier from an older one.
-/

namespace StagedBuild
namespace AliasTable

/-- The table after some calls of `register`, and the calls in order, each with the reason for which
it was refused, if it was. -/
structure RegistrationRun where
  table : AliasTable
  calls : List (AliasEntry × Option BuildFailure)

/-- Call `register` for one entry after the other. A refused call leaves the table as it is. -/
def registerAll (table : AliasTable) : List AliasEntry → RegistrationRun
  | [] => ⟨table, []⟩
  | entry :: rest =>
    match table.register entry with
    | .ok next =>
      let later := registerAll next rest
      { later with calls := (entry, none) :: later.calls }
    | .error failure =>
      let later := registerAll table rest
      { later with calls := (entry, some failure) :: later.calls }

-- ════════════════════════════════════════════════════════════════════════
-- One call
-- ════════════════════════════════════════════════════════════════════════

theorem register_eq_ok_iff {table next : AliasTable} {entry : AliasEntry} :
    table.register entry = .ok next ↔
      entry.name ≠ "" ∧ entry.name ∉ table.entries.map (·.name) ∧
        next = { table with entries := table.entries ++ [entry] } := by
  rw [register]
  by_cases hname : entry.name = ""
  · simp [hname]
  · by_cases htaken : entry.name ∈ table.entries.map (·.name)
    · simp [hname, htaken]
    · rw [if_neg hname, if_neg htaken, Except.ok.injEq]
      constructor
      · intro hnext
        exact ⟨hname, htaken, hnext.symm⟩
      · rintro ⟨-, -, hnext⟩
        exact hnext.symm

theorem register_eq_error_iff {table : AliasTable} {entry : AliasEntry} {failure : BuildFailure} :
    table.register entry = .error failure ↔
      (entry.name = "" ∧ failure = .emptyAliasName ∧ failure.kind = .configuration) ∨
      (entry.name ≠ "" ∧ entry.name ∈ table.entries.map (·.name) ∧
        failure = .duplicateAlias entry.name) := by
  rw [register]
  by_cases hname : entry.name = ""
  · rw [if_pos hname, Except.error.injEq]
    constructor
    · rintro rfl
      exact .inl ⟨hname, rfl, rfl⟩
    · rintro (⟨-, hfailure, -⟩ | ⟨hne, -⟩)
      · exact hfailure.symm
      · exact absurd hname hne
  · by_cases htaken : entry.name ∈ table.entries.map (·.name)
    · rw [if_neg hname, if_pos htaken, Except.error.injEq]
      constructor
      · rintro rfl
        exact .inr ⟨hname, htaken, rfl⟩
      · rintro (⟨hempty, -⟩ | ⟨-, -, hfailure⟩)
        · exact absurd hempty hname
        · exact hfailure.symm
    · simp [hname, htaken]

theorem Sound.register {table next : AliasTable} {entry : AliasEntry}
    (hsound : Sound (table.entries.map (·.name))) (h : table.register entry = .ok next) :
    Sound (next.entries.map (·.name)) := by
  obtain ⟨hname, hfresh, rfl⟩ := register_eq_ok_iff.1 h
  rw [List.map_append, List.map_singleton]
  exact sound_concat.2 ⟨hsound, hname, hfresh⟩

-- ════════════════════════════════════════════════════════════════════════
-- Specifiers
-- ════════════════════════════════════════════════════════════════════════

theorem isSome_matching?_iff {table : AliasTable} {specifier : String} :
    (table.matching? specifier).isSome = true ↔
      ∃ entry ∈ table.entries, Text.isSegmentPrefix entry.name specifier = true := by
  simp only [matching?, List.findSome?_isSome_iff, Option.isSome_map, Text.isSome_segmentRest?_iff,
    Text.isSegmentPrefix_iff]

/-- The first entry that leads a specifier stays the first when another is put behind it. -/
theorem candidates_of_matched {table : AliasTable} {specifier : String}
    (h : ∃ entry ∈ table.entries, Text.isSegmentPrefix entry.name specifier = true)
    (later : List AliasEntry) :
    candidates { table with entries := table.entries ++ later } specifier =
      table.candidates specifier := by
  obtain ⟨found, hfound⟩ := Option.isSome_iff_exists.1 (isSome_matching?_iff.2 h)
  have hlater : matching? { table with entries := table.entries ++ later } specifier = some found := by
    rw [matching?] at hfound
    rw [matching?, List.findSome?_append, hfound, Option.some_or]
  rw [candidates, candidates, hlater, hfound]

-- ════════════════════════════════════════════════════════════════════════
-- Runs of calls
-- ════════════════════════════════════════════════════════════════════════

section Run

variable {table next : AliasTable} {entry : AliasEntry}

theorem registerAll_of_ok (h : table.register entry = .ok next) (rest : List AliasEntry) :
    table.registerAll (entry :: rest) =
      ⟨(next.registerAll rest).table, (entry, none) :: (next.registerAll rest).calls⟩ := by
  rw [registerAll, h]

theorem registerAll_of_error {failure : BuildFailure} (h : table.register entry = .error failure)
    (rest : List AliasEntry) :
    table.registerAll (entry :: rest) =
      ⟨(table.registerAll rest).table, (entry, some failure) :: (table.registerAll rest).calls⟩ := by
  rw [registerAll, h]

/-- A run goes on from the table that it has reached. -/
theorem registerAll_append (table : AliasTable) (calls more : List AliasEntry) :
    table.registerAll (calls ++ more) =
      ⟨((table.registerAll calls).table.registerAll more).table,
        (table.registerAll calls).calls ++ ((table.registerAll calls).table.registerAll more).calls⟩ := by
  induction calls generalizing table with
  | nil => rfl
  | cons entry rest ih =>
    cases hregister : table.register entry with
    | ok next =>
      rw [List.cons_append, registerAll_of_ok hregister, registerAll_of_ok hregister, ih next]
      rfl
    | error failure =>
      rw [List.cons_append, registerAll_of_error hregister, registerAll_of_error hregister, ih table]
      rfl

/-- A refused call at the end of a run. -/
theorem registerAll_concat_of_error {calls : List AliasEntry} {failure : BuildFailure}
    (h : (table.registerAll calls).table.register entry = .error failure) :
    table.registerAll (calls ++ [entry]) =
      { table.registerAll calls with
        calls := (table.registerAll calls).calls ++ [(entry, some failure)] } := by
  rw [registerAll_append, registerAll_of_error h]
  rfl

theorem registerAll_concat_of_ok {calls : List AliasEntry}
    (h : (table.registerAll calls).table.register entry = .ok next) :
    table.registerAll (calls ++ [entry]) =
      ⟨next, (table.registerAll calls).calls ++ [(entry, none)]⟩ := by
  rw [registerAll_append, registerAll_of_ok h]
  rfl

theorem calls_registerAll (table : AliasTable) (calls : List AliasEntry) :
    (table.registerAll calls).calls.map (·.1) = calls := by
  induction calls generalizing table with
  | nil => rfl
  | cons entry rest ih =>
    cases hregister : table.register entry with
    | ok next => rw [registerAll_of_ok hregister, List.map_cons, ih next]
    | error failure => rw [registerAll_of_error hregister, List.map_cons, ih table]

theorem extensions_registerAll (table : AliasTable) (calls : List AliasEntry) :
    (table.registerAll calls).table.extensions = table.extensions := by
  induction calls generalizing table with
  | nil => rfl
  | cons entry rest ih =>
    cases hregister : table.register entry with
    | ok next =>
      obtain ⟨-, -, rfl⟩ := register_eq_ok_iff.1 hregister
      rw [registerAll_of_ok hregister]
      exact ih _
    | error failure =>
      rw [registerAll_of_error hregister]
      exact ih table

/-- The entries are those of the calls that were not refused, in the order of the calls. -/
theorem entries_registerAll (table : AliasTable) (calls : List AliasEntry) :
    (table.registerAll calls).table.entries =
      table.entries ++ ((table.registerAll calls).calls.filter (·.2.isNone)).map (·.1) := by
  induction calls generalizing table with
  | nil => simp [registerAll]
  | cons entry rest ih =>
    cases hregister : table.register entry with
    | ok next =>
      obtain ⟨-, -, rfl⟩ := register_eq_ok_iff.1 hregister
      simp [registerAll_of_ok hregister, ih]
    | error failure => simp [registerAll_of_error hregister, ih]

theorem Sound.registerAll {table : AliasTable} (hsound : Sound (table.entries.map (·.name)))
    (calls : List AliasEntry) :
    Sound ((table.registerAll calls).table.entries.map (·.name)) := by
  induction calls generalizing table with
  | nil => exact hsound
  | cons entry rest ih =>
    cases hregister : table.register entry with
    | ok next =>
      rw [registerAll_of_ok hregister]
      exact ih (hsound.register hregister)
    | error failure =>
      rw [registerAll_of_error hregister]
      exact ih hsound

end Run

/-- Whatever calls have been made, the entries have names that are neither empty nor repeated; they
are the entries of the calls that were not refused, in order and as they were given; the extensions
are the first ones; and the entries make the same table again. One more call is refused exactly for
an empty name or one that is taken, and then the table stays as it is. Otherwise each specifier that
an entry led already keeps its candidates. -/
theorem registerAll_history (extensions : List String) (calls : List AliasEntry) :
    let run := (empty extensions).registerAll calls
    let names := run.table.entries.map (·.name)
    ((∀ name ∈ names, name ≠ "") ∧ names.Nodup) ∧
    run.calls.map (·.1) = calls ∧
    run.table.entries = (run.calls.filter (·.2.isNone)).map (·.1) ∧
    run.table.extensions = extensions ∧
    ofEntries run.table.entries run.table.extensions = .ok run.table ∧
    ∀ entry : AliasEntry, ∃ refused : Option BuildFailure,
      let next := (empty extensions).registerAll (calls ++ [entry])
      next.calls = run.calls ++ [(entry, refused)] ∧
      (∀ failure, refused = some failure ↔
        (entry.name = "" ∧ failure = .emptyAliasName ∧ failure.kind = .configuration) ∨
        (entry.name ≠ "" ∧ entry.name ∈ names ∧ failure = .duplicateAlias entry.name)) ∧
      (∀ failure, refused = some failure → next.table = run.table) ∧
      (refused = none → next.table.entries = run.table.entries ++ [entry] ∧
        ∀ specifier, (∃ other ∈ run.table.entries,
            Text.isSegmentPrefix other.name specifier = true) →
          next.table.candidates specifier = run.table.candidates specifier) := by
  intro run names
  have hempty : Sound ((empty extensions).entries.map (·.name)) := ⟨by simp [empty], .nil⟩
  have hsound : Sound names := hempty.registerAll calls
  have hentries : run.table.entries = [] ++ (run.calls.filter (·.2.isNone)).map (·.1) :=
    entries_registerAll (empty extensions) calls
  refine ⟨hsound, calls_registerAll _ calls, hentries, extensions_registerAll _ calls,
    ofEntries_of_sound hsound _, ?_⟩
  intro entry
  cases hregister : run.table.register entry with
  | error failure =>
    rw [registerAll_concat_of_error hregister]
    refine ⟨some failure, rfl, ?_, fun _ _ => rfl, ?_⟩
    · intro other
      rw [← register_eq_error_iff, hregister, Except.error.injEq, Option.some.injEq]
    · intro hnone
      cases hnone
  | ok after =>
    rw [registerAll_concat_of_ok hregister]
    refine ⟨none, rfl, ?_, ?_, ?_⟩
    · intro failure
      rw [← register_eq_error_iff, hregister]
      constructor
      · intro hnone
        cases hnone
      · intro herror
        cases herror
    · intro failure hnone
      cases hnone
    · intro _
      obtain ⟨-, -, rfl⟩ := register_eq_ok_iff.1 hregister
      exact ⟨rfl, fun specifier hmatched => candidates_of_matched hmatched [entry]⟩

end AliasTable
end StagedBuild
