import Mathlib.Data.List.Induction
import Mathlib.Logic.Relation
import StagedBuild.Execution.Signals

/-!
# Families of signals

Signals that are linked by a chain of copies, in either direction, are one family. Which signals are
raised can be told from the history of a run alone: those with a member of their family that some
step has raised, whether the copies were made before that step or after it.

## Main definitions

* `Signals.CopiedFrom`, `Signals.RaisedBy`: what the steps of a run have done.
* `Signals.Family`: linked by a chain of copies.

## Main results

* `Signals.family_of_getElem?`, `Signals.Family.getElem?_families`: two signals that have been made
  are of one family when the same number is kept for them.
* `Signals.isRaised_iff`: a signal is raised when a step has raised one of its family.
* `Signals.isRaised_history`: raised signals stay raised, and other families are left alone.
-/

namespace StagedBuild
namespace Signals

/-- A step has made the second signal as a copy of the first, which had been made before. -/
def CopiedFrom (steps : List SignalStep) (original copy : Nat) : Prop :=
  ∃ before after, steps = before ++ .clone original :: after ∧
    original < (start.run before).count ∧ copy = (start.run before).count

/-- A step has raised the signal, which had been made before. -/
def RaisedBy (steps : List SignalStep) (number : Nat) : Prop :=
  ∃ before after, steps = before ++ .raise number :: after ∧ number < (start.run before).count

/-- A chain of copies links the signals, each link taken in either direction. -/
def Family (steps : List SignalStep) : Nat → Nat → Prop :=
  Relation.EqvGen (CopiedFrom steps)

-- ════════════════════════════════════════════════════════════════════════
-- One more step
-- ════════════════════════════════════════════════════════════════════════

section Step

variable {signals : Signals} {number family : Nat}

theorem lt_count_iff :
    number < signals.count ↔ ∃ family, signals.families[number]? = some family := by
  rw [← Option.isSome_iff_exists, isSome_getElem?]
  rfl

theorem getElem?_concat_iff {xs : List Nat} {last index x : Nat} :
    (xs ++ [last])[index]? = some x ↔ xs[index]? = some x ∨ (index = xs.length ∧ x = last) := by
  by_cases hlt : index < xs.length
  · have hne : index ≠ xs.length := by omega
    simp [List.getElem?_append_left hlt, hne]
  · have hnone : xs[index]? = none := List.getElem?_eq_none (by omega)
    rw [List.getElem?_append_right (by omega), List.getElem?_singleton, hnone]
    by_cases heq : index = xs.length
    · simp [heq, eq_comm]
    · have hpos : index - xs.length ≠ 0 := by omega
      simp [heq, hpos]

/-- A step makes a signal of a new family, makes one of a family that there is, raises a family, or
is about a signal that has not been made and does nothing. -/
theorem step_cases (signals : Signals) (step : SignalStep) :
    (step = .fresh ∧
      signals.step step = { signals with families := signals.families ++ [signals.count] }) ∨
    (∃ original family, step = .clone original ∧ signals.families[original]? = some family ∧
      signals.step step = { signals with families := signals.families ++ [family] }) ∨
    (∃ number family, step = .raise number ∧ signals.families[number]? = some family ∧
      signals.step step = { signals with raised := family :: signals.raised }) ∨
    (∃ number, (step = .clone number ∨ step = .raise number) ∧
      signals.families[number]? = none ∧ signals.step step = signals) := by
  cases step with
  | fresh => exact .inl ⟨rfl, rfl⟩
  | clone original =>
    cases horiginal : signals.families[original]? with
    | some family => exact .inr (.inl ⟨original, family, rfl, horiginal, by rw [step, horiginal]⟩)
    | none => exact .inr (.inr (.inr ⟨original, .inl rfl, horiginal, by rw [step, horiginal]⟩))
  | raise number =>
    cases hnumber : signals.families[number]? with
    | some family => exact .inr (.inr (.inl ⟨number, family, rfl, hnumber, by rw [step, hnumber]⟩))
    | none => exact .inr (.inr (.inr ⟨number, .inr rfl, hnumber, by rw [step, hnumber]⟩))

/-- The family of a signal is kept for good. -/
theorem getElem?_families_step (step : SignalStep) (h : signals.families[number]? = some family) :
    (signals.step step).families[number]? = some family := by
  obtain ⟨-, hstep⟩ | ⟨_, _, -, -, hstep⟩ | ⟨_, _, -, -, hstep⟩ | ⟨_, -, -, hstep⟩ :=
    step_cases signals step
  · rw [hstep]
    exact getElem?_concat_iff.2 (.inl h)
  · rw [hstep]
    exact getElem?_concat_iff.2 (.inl h)
  · rwa [hstep]
  · rwa [hstep]

theorem getElem?_families_run (steps : List SignalStep)
    (h : signals.families[number]? = some family) :
    (signals.run steps).families[number]? = some family := by
  induction steps generalizing signals with
  | nil => exact h
  | cons step rest ih => exact ih (getElem?_families_step step h)

theorem mem_raised_step {step : SignalStep} : family ∈ (signals.step step).raised ↔
    family ∈ signals.raised ∨
      ∃ number, step = .raise number ∧ signals.families[number]? = some family := by
  obtain ⟨rfl, hstep⟩ | ⟨_, _, rfl, -, hstep⟩ | ⟨number, raised, rfl, hnumber, hstep⟩ |
    ⟨number, hform, hnone, hstep⟩ := step_cases signals step
  · simp [hstep]
  · simp [hstep]
  · simp [hstep, hnumber, or_comm, eq_comm]
  · obtain rfl | rfl := hform
    · simp [hstep]
    · simp [hstep, hnone]

end Step

-- ════════════════════════════════════════════════════════════════════════
-- Histories
-- ════════════════════════════════════════════════════════════════════════

section History

variable {steps : List SignalStep} {step : SignalStep}

theorem run_concat (signals : Signals) (steps : List SignalStep) (step : SignalStep) :
    signals.run (steps ++ [step]) = (signals.run steps).step step := by
  rw [run, List.foldl_append]
  rfl

/-- What has happened by the end of a step has happened before it, or in it. -/
theorem exists_split_concat {p : List SignalStep → Prop} {one : SignalStep} :
    (∃ before after, steps ++ [step] = before ++ one :: after ∧ p before) ↔
      (∃ before after, steps = before ++ one :: after ∧ p before) ∨ (step = one ∧ p steps) := by
  constructor
  · rintro ⟨before, after, hsplit, hp⟩
    cases after using List.reverseRecOn with
    | nil =>
      obtain ⟨rfl, hone⟩ := List.append_inj' hsplit rfl
      exact .inr ⟨List.singleton_inj.1 hone, hp⟩
    | append_singleton after last =>
      rw [← List.cons_append, ← List.append_assoc] at hsplit
      obtain ⟨hsteps, -⟩ := List.append_inj' hsplit rfl
      exact .inl ⟨before, after, hsteps, hp⟩
  · rintro (⟨before, after, rfl, hp⟩ | ⟨rfl, hp⟩)
    · exact ⟨before, after ++ [step], by simp, hp⟩
    · exact ⟨steps, [], rfl, hp⟩

theorem copiedFrom_concat {original copy : Nat} :
    CopiedFrom (steps ++ [step]) original copy ↔ CopiedFrom steps original copy ∨
      (step = .clone original ∧ original < (start.run steps).count ∧
        copy = (start.run steps).count) :=
  exists_split_concat

theorem raisedBy_concat {number : Nat} :
    RaisedBy (steps ++ [step]) number ↔
      RaisedBy steps number ∨ (step = .raise number ∧ number < (start.run steps).count) :=
  exists_split_concat

theorem Family.append {i j : Nat} (h : Family steps i j) (more : List SignalStep) :
    Family (steps ++ more) i j := by
  refine Relation.EqvGen.mono (fun original copy hcopied => ?_) i j h
  obtain ⟨before, after, rfl, hmade, hcopy⟩ := hcopied
  exact ⟨before, after ++ more, by simp, hmade, hcopy⟩

theorem Family.refl (steps : List SignalStep) (i : Nat) : Family steps i i :=
  Relation.EqvGen.refl i

theorem family_concat_raise {raised i j : Nat} :
    Family (steps ++ [.raise raised]) i j ↔ Family steps i j := by
  have hcopied : CopiedFrom (steps ++ [.raise raised]) = CopiedFrom steps := by
    funext original copy
    simp [copiedFrom_concat]
  rw [Family, hcopied, Family]

/-- The number that is kept for a signal is a signal of its family. -/
theorem family_of_getElem? {number family : Nat}
    (h : (start.run steps).families[number]? = some family) : Family steps family number := by
  induction steps using List.reverseRecOn generalizing number family with
  | nil =>
    have hfirst : ([] ++ [0] : List Nat)[number]? = some family := h
    obtain hnone | ⟨rfl, rfl⟩ := getElem?_concat_iff.1 hfirst
    · cases hnone
    · exact .refl _ _
  | append_singleton steps step ih =>
    rw [run_concat] at h
    obtain ⟨-, hstep⟩ | ⟨original, other, rfl, horiginal, hstep⟩ | ⟨_, _, -, -, hstep⟩ |
      ⟨_, -, -, hstep⟩ := step_cases (start.run steps) step
    all_goals rw [hstep] at h
    · obtain hold | ⟨rfl, rfl⟩ := getElem?_concat_iff.1 h
      · exact (ih hold).append _
      · exact .refl _ _
    · obtain hold | ⟨rfl, rfl⟩ := getElem?_concat_iff.1 h
      · exact (ih hold).append _
      · have hcopied := copiedFrom_concat.2 (.inr ⟨rfl, lt_count_iff.2 ⟨_, horiginal⟩, rfl⟩)
        exact .trans _ _ _ ((ih horiginal).append _) (.rel _ _ hcopied)
    · exact (ih h).append _
    · exact (ih h).append _

theorem run_append_cons (before after : List SignalStep) (step : SignalStep) :
    start.run (before ++ step :: after) = ((start.run before).step step).run after := by
  rw [run, List.foldl_append]
  rfl

/-- The same number is kept for a signal and its copy. -/
theorem CopiedFrom.getElem?_families {original copy : Nat} (h : CopiedFrom steps original copy) :
    ∃ family, (start.run steps).families[original]? = some family ∧
      (start.run steps).families[copy]? = some family := by
  obtain ⟨before, after, rfl, hmade, rfl⟩ := h
  obtain ⟨family, horiginal⟩ := lt_count_iff.1 hmade
  have hcopy : ((start.run before).step (.clone original)).families[(start.run before).count]? =
      some family := by
    rw [step, horiginal]
    exact getElem?_concat_iff.2 (.inr ⟨rfl, rfl⟩)
  rw [run_append_cons]
  exact ⟨family, getElem?_families_run after (getElem?_families_step _ horiginal),
    getElem?_families_run after hcopy⟩

theorem RaisedBy.exists_family {number : Nat} (h : RaisedBy steps number) :
    ∃ family, (start.run steps).families[number]? = some family := by
  obtain ⟨before, after, rfl, hmade⟩ := h
  obtain ⟨family, hnumber⟩ := lt_count_iff.1 hmade
  rw [run_append_cons]
  exact ⟨family, getElem?_families_run after (getElem?_families_step _ hnumber)⟩

theorem Family.getElem?_families {i j : Nat} (h : Family steps i j) :
    (start.run steps).families[i]? = (start.run steps).families[j]? := by
  have hequivalence : Equivalence fun i j : Nat =>
      (start.run steps).families[i]? = (start.run steps).families[j]? :=
    ⟨fun _ => rfl, Eq.symm, Eq.trans⟩
  refine hequivalence.eqvGen_iff.1 (Relation.EqvGen.mono (fun original copy hcopied => ?_) i j h)
  obtain ⟨family, horiginal, hcopy⟩ := hcopied.getElem?_families
  rw [horiginal, hcopy]

/-- A family is raised when a step has raised one of its signals. -/
theorem mem_raised_iff {family : Nat} : family ∈ (start.run steps).raised ↔
    ∃ number, RaisedBy steps number ∧ (start.run steps).families[number]? = some family := by
  induction steps using List.reverseRecOn with
  | nil =>
    constructor
    · intro h
      cases h
    · rintro ⟨number, ⟨before, after, hsplit, -⟩, -⟩
      simp at hsplit
  | append_singleton steps step ih =>
    rw [run_concat, mem_raised_step, ih]
    constructor
    · rintro (⟨number, hraised, hnumber⟩ | ⟨number, rfl, hnumber⟩)
      · exact ⟨number, raisedBy_concat.2 (.inl hraised), getElem?_families_step step hnumber⟩
      · have hmade := lt_count_iff.2 ⟨family, hnumber⟩
        exact ⟨number, raisedBy_concat.2 (.inr ⟨rfl, hmade⟩), getElem?_families_step _ hnumber⟩
    · rintro ⟨number, hraised, hnumber⟩
      obtain hold | ⟨rfl, hmade⟩ := raisedBy_concat.1 hraised
      · obtain ⟨other, hother⟩ := hold.exists_family
        obtain rfl := Option.some.inj ((getElem?_families_step step hother).symm.trans hnumber)
        exact .inl ⟨number, hold, hother⟩
      · obtain ⟨other, hother⟩ := lt_count_iff.1 hmade
        obtain rfl := Option.some.inj ((getElem?_families_step _ hother).symm.trans hnumber)
        exact .inr ⟨number, rfl, hother⟩

/-- A signal is raised when a step has raised one of its family. -/
theorem isRaised_iff {number : Nat} : (start.run steps).isRaised number = true ↔
    ∃ other, RaisedBy steps other ∧ Family steps other number := by
  constructor
  · intro h
    cases hnumber : (start.run steps).families[number]? with
    | none => simp [isRaised, hnumber] at h
    | some family =>
      have hmem : family ∈ (start.run steps).raised := by simpa [isRaised, hnumber] using h
      obtain ⟨other, hraised, hother⟩ := mem_raised_iff.1 hmem
      have hfamily := (family_of_getElem? hother).symm.trans _ _ _ (family_of_getElem? hnumber)
      exact ⟨other, hraised, hfamily⟩
  · rintro ⟨other, hraised, hfamily⟩
    obtain ⟨family, hother⟩ := hraised.exists_family
    have hnumber := hfamily.getElem?_families.symm.trans hother
    have hmem := mem_raised_iff.2 ⟨other, hraised, hother⟩
    simp [isRaised, hnumber, hmem]

theorem RaisedBy.append {number : Nat} (h : RaisedBy steps number) (more : List SignalStep) :
    RaisedBy (steps ++ more) number := by
  obtain ⟨before, after, rfl, hmade⟩ := h
  exact ⟨before, after ++ more, by simp, hmade⟩

end History

/-- After any steps a signal is raised exactly if some step has raised a signal of its family, be it
before or after the copies were made that link the two. So a raised signal stays raised whatever
steps follow, and raising a signal leaves all signals of other families as they are. -/
theorem isRaised_history (steps : List SignalStep) :
    (∀ number, (start.run steps).isRaised number = true ↔
      ∃ other, RaisedBy steps other ∧ Family steps other number) ∧
    (∀ more number, (start.run steps).isRaised number = true →
      (start.run (steps ++ more)).isRaised number = true) ∧
    (∀ raised number, ¬ Family steps raised number →
      (start.run (steps ++ [.raise raised])).isRaised number =
        (start.run steps).isRaised number) := by
  refine ⟨fun number => isRaised_iff, ?_, ?_⟩
  · intro more number h
    obtain ⟨other, hraised, hfamily⟩ := isRaised_iff.1 h
    exact isRaised_iff.2 ⟨other, hraised.append more, hfamily.append more⟩
  · intro raised number hother
    rw [Bool.eq_iff_iff, isRaised_iff, isRaised_iff]
    constructor
    · rintro ⟨other, hraised, hfamily⟩
      rw [family_concat_raise] at hfamily
      obtain hold | ⟨hstep, -⟩ := raisedBy_concat.1 hraised
      · exact ⟨other, hold, hfamily⟩
      · cases hstep
        exact absurd hfamily hother
    · rintro ⟨other, hraised, hfamily⟩
      exact ⟨other, hraised.append _, hfamily.append _⟩

end Signals
end StagedBuild
