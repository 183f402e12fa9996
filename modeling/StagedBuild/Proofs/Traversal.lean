/-!
# Traversals that stop early

Facts about lists that are gone through from the left until something is met: the first element with
a property, and a traversal that stops at the first failure. Steps that are taken one after the other
stop in the same way.

## Main results

* `exists_first`: what comes before the first element with a property does not have it.
* `exists_map_eq`: elements that all have a form together are a list of that form.
* `map_eq_map_of_results`: facts about each value of a traversal are facts about the lists.
* `mapM_eq_ok`, `mapM_eq_error`: a traversal gives all values, or the first failure.
* `mapM_map_of_forall`: a traversal that reads what was written.
* `mem_mapM_iff`: which values a traversal gives.
* `mapM_perm`, `bind_eq_of_rel`: a traversal in another order, and what is made of its values.
* `bind_eq_ok_iff`, `bind_eq_error_iff`: a step that needs the value of another one.
-/

namespace StagedBuild
namespace Traversal

variable {α β γ ε : Type}

/-- If some element has a property, one of them is the first. -/
theorem exists_first {p : α → Prop} {xs : List α} (h : ∃ x ∈ xs, p x) :
    ∃ before x after, xs = before ++ x :: after ∧ (∀ y ∈ before, ¬ p y) ∧ p x := by
  induction xs with
  | nil =>
    obtain ⟨x, hmem, -⟩ := h
    simp at hmem
  | cons head tail ih =>
    by_cases hhead : p head
    · exact ⟨[], head, tail, rfl, by simp, hhead⟩
    · have htail : ∃ x ∈ tail, p x := by
        obtain ⟨x, hmem, hx⟩ := h
        rcases List.mem_cons.1 hmem with rfl | hmem
        · exact absurd hx hhead
        · exact ⟨x, hmem, hx⟩
      obtain ⟨before, x, after, rfl, hbefore, hx⟩ := ih htail
      refine ⟨head :: before, x, after, rfl, ?_, hx⟩
      intro y hy
      rcases List.mem_cons.1 hy with rfl | hy
      · exact hhead
      · exact hbefore y hy

theorem exists_map_eq {f : α → γ} {g : β → γ} {xs : List α} (h : ∀ x ∈ xs, ∃ y, f x = g y) :
    ∃ ys : List β, xs.map f = ys.map g := by
  induction xs with
  | nil => exact ⟨[], rfl⟩
  | cons head tail ih =>
    obtain ⟨y, hy⟩ := h head List.mem_cons_self
    obtain ⟨ys, hys⟩ := ih fun x hx => h x (List.mem_cons_of_mem head hx)
    refine ⟨y :: ys, ?_⟩
    rw [List.map_cons, List.map_cons, hy, hys]

/-- What each value tells about the element that it comes from holds for the lists. -/
theorem map_eq_map_of_results {δ : Type} {f : α → Except ε β} {g : α → δ} {k : β → δ} {xs : List α}
    {ys : List β} (h : xs.map f = ys.map .ok) (hvalue : ∀ x y, f x = .ok y → k y = g x) :
    xs.map g = ys.map k := by
  induction xs generalizing ys with
  | nil =>
    obtain rfl : ys = [] := by simpa using h.symm
    rfl
  | cons head tail ih =>
    cases ys with
    | nil => cases h
    | cons y ys =>
      obtain ⟨hhead, htail⟩ := List.cons.inj h
      rw [List.map_cons, List.map_cons, hvalue head y hhead, ih htail]

/-- A traversal succeeds with the values of all elements. -/
theorem mapM_eq_ok {f : α → Except ε β} {xs : List α} {ys : List β}
    (h : xs.map f = ys.map .ok) : xs.mapM f = .ok ys := by
  induction xs generalizing ys with
  | nil =>
    obtain rfl : ys = [] := by simpa using h.symm
    rfl
  | cons head tail ih =>
    cases ys with
    | nil => simp at h
    | cons y ys =>
      obtain ⟨hhead, htail⟩ := List.cons.inj h
      rw [List.mapM_cons, hhead, ih htail]
      rfl

/-- A traversal of written elements succeeds with what each of them is read as. -/
theorem mapM_map_of_forall {write : α → β} {read : β → Option γ} {result : α → γ}
    (h : ∀ x, read (write x) = some (result x)) (xs : List α) :
    (xs.map write).mapM read = some (xs.map result) := by
  induction xs with
  | nil => rfl
  | cons x xs ih => simp [h, ih]

/-- What each value keeps of the element that it comes from, the lists keep. -/
theorem map_eq_map_of_mapM {δ : Type} {f : α → Option β} {g : α → δ} {k : β → δ} {xs : List α}
    {ys : List β} (h : xs.mapM f = some ys) (hvalue : ∀ x y, f x = some y → k y = g x) :
    ys.map k = xs.map g := by
  induction xs generalizing ys with
  | nil =>
    obtain rfl := Option.some.inj h
    rfl
  | cons x xs ih =>
    rw [List.mapM_cons] at h
    obtain ⟨y, hy, h⟩ := Option.bind_eq_some_iff.1 h
    obtain ⟨rest, hrest, h⟩ := Option.bind_eq_some_iff.1 h
    obtain rfl := Option.some.inj h
    rw [List.map_cons, List.map_cons, hvalue x y hy, ih hrest]

/-- A value comes from some element, and every element gives its value. -/
theorem mem_mapM_iff {f : α → Option β} {xs : List α} {ys : List β} (h : xs.mapM f = some ys)
    {y : β} : y ∈ ys ↔ ∃ x ∈ xs, f x = some y := by
  induction xs generalizing ys with
  | nil =>
    obtain rfl := Option.some.inj h
    simp
  | cons x xs ih =>
    rw [List.mapM_cons] at h
    obtain ⟨value, hvalue, h⟩ := Option.bind_eq_some_iff.1 h
    obtain ⟨rest, hrest, h⟩ := Option.bind_eq_some_iff.1 h
    obtain rfl := Option.some.inj h
    rw [List.mem_cons, ih hrest]
    simp [hvalue, eq_comm]

/-- The values of a traversal are in the order of the elements. -/
theorem mapM_perm {f : α → Option β} {xs ys : List α} (h : xs.Perm ys) :
    Option.Rel List.Perm (xs.mapM f) (ys.mapM f) := by
  induction h with
  | nil => exact .some .nil
  | @cons x xs ys _ ih =>
    simp only [List.mapM_cons]
    generalize xs.mapM f = as, ys.mapM f = bs at ih
    cases ih with
    | none => cases f x <;> exact .none
    | some hperm =>
      cases f x with
      | none => exact .none
      | some y => exact .some (hperm.cons y)
  | swap x y xs =>
    simp only [List.mapM_cons]
    cases f x <;> cases f y <;> cases xs.mapM f
    case some.some.some a b rest => exact .some (.swap a b rest)
    all_goals exact .none
  | @trans xs ys zs _ _ ih ih' =>
    generalize xs.mapM f = as, ys.mapM f = bs, zs.mapM f = cs at ih ih'
    cases ih with
    | none => exact ih'
    | some hperm =>
      cases ih' with
      | some hperm' => exact .some (hperm.trans hperm')

/-- A step that finds the same after related values finds the same after the values of related
steps. -/
theorem bind_eq_of_rel {r : α → α → Prop} {first second : Option α} {next : α → Option β}
    (h : Option.Rel r first second)
    (hnext : ∀ x y, first = some x → r x y → next x = next y) :
    first.bind next = second.bind next := by
  cases h with
  | none => rfl
  | some hr => exact hnext _ _ rfl hr

/-- A traversal sees of each element only what it is read as. -/
theorem mapM_eq_of_middle {f : α → Option β} {x y : α} (h : f x = f y) (before after : List α) :
    (before ++ x :: after).mapM f = (before ++ y :: after).mapM f := by
  rw [List.mapM_append, List.mapM_append, List.mapM_cons, List.mapM_cons, h]

/-- The first failure is the failure of the traversal, whatever comes after it. -/
theorem mapM_eq_error {f : α → Except ε β} {before after : List α} {x : α} {failure : ε}
    (hbefore : ∀ y ∈ before, ∃ value, f y = .ok value) (hx : f x = .error failure) :
    (before ++ x :: after).mapM f = .error failure := by
  induction before with
  | nil =>
    rw [List.nil_append, List.mapM_cons, hx]
    rfl
  | cons head tail ih =>
    obtain ⟨value, hhead⟩ := hbefore head List.mem_cons_self
    have htail := ih fun y hy => hbefore y (List.mem_cons_of_mem head hy)
    rw [List.cons_append, List.mapM_cons, hhead, htail]
    rfl

theorem bind_eq_ok_iff {step : Except ε α} {next : α → Except ε β} {y : β} :
    step >>= next = .ok y ↔ ∃ x, step = .ok x ∧ next x = .ok y := by
  cases step with
  | error failure => simp [bind, Except.bind]
  | ok x => simp [bind, Except.bind]

theorem mapError_eq_ok_iff {step : Except ε α} {wrap : ε → γ} {x : α} :
    step.mapError wrap = .ok x ↔ step = .ok x := by
  constructor
  · intro h
    cases step with
    | error failure => cases h
    | ok y => exact congrArg Except.ok (Except.ok.inj h)
  · rintro rfl
    rfl

end Traversal
end StagedBuild
