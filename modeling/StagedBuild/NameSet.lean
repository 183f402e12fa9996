/-!
# Sets of names

A set of names is held as a strictly increasing list, ordered by code point. Two sets with the same
members are therefore equal, and the list is the order in which the set is shown.

## Main definitions

* `NameSet`: the strictly increasing lists.
* `NameSet.insert`, `NameSet.ofList`, `NameSet.union`: building a set from names in any order.
-/

namespace StagedBuild

/-- A finite set of names. -/
structure NameSet where
  /-- The members, in code point order. -/
  names : List String
  /-- No name is repeated, and the names are in order. -/
  increasing : names.Pairwise (· < ·)
deriving DecidableEq

namespace NameSet

/-- Put a name at its place in an increasing list, unless it is there already. -/
def insertName (name : String) : List String → List String
  | [] => [name]
  | other :: rest =>
    if name < other then name :: other :: rest
    else if name = other then other :: rest
    else other :: insertName name rest

theorem mem_insertName {x name : String} {names : List String} :
    x ∈ insertName name names ↔ x = name ∨ x ∈ names := by
  induction names with
  | nil => simp [insertName]
  | cons other rest ih =>
    unfold insertName
    split
    · simp
    · split
      · next h => subst h; simp
      · simp only [List.mem_cons, ih]
        constructor
        · rintro (h | h | h) <;> simp [h]
        · rintro (h | h | h) <;> simp [h]

theorem pairwise_insertName {name : String} {names : List String}
    (h : names.Pairwise (· < ·)) : (insertName name names).Pairwise (· < ·) := by
  induction names with
  | nil => simp [insertName]
  | cons other rest ih =>
    obtain ⟨hother, hrest⟩ := List.pairwise_cons.1 h
    unfold insertName
    split
    · next hlt =>
      refine List.pairwise_cons.2 ⟨fun x hx => ?_, h⟩
      rcases List.mem_cons.1 hx with rfl | hx
      · exact hlt
      · exact String.lt_trans hlt (hother x hx)
    · split
      · exact h
      · next hnlt hne =>
        refine List.pairwise_cons.2 ⟨fun x hx => ?_, ih hrest⟩
        rcases mem_insertName.1 hx with rfl | hx
        · refine String.not_le.1 fun hle => hne ?_
          exact String.le_antisymm hle (String.not_lt.1 hnlt)
        · exact hother x hx

def empty : NameSet := ⟨[], .nil⟩

instance : Inhabited NameSet := ⟨empty⟩

def insert (set : NameSet) (name : String) : NameSet :=
  ⟨insertName name set.names, pairwise_insertName set.increasing⟩

/-- The set of the listed names, in whatever order and however often they are listed. -/
def ofList (names : List String) : NameSet :=
  names.foldl insert empty

def union (a b : NameSet) : NameSet :=
  b.names.foldl insert a

def isEmpty (set : NameSet) : Bool :=
  set.names.isEmpty

instance : Membership String NameSet := ⟨fun set name => name ∈ set.names⟩

@[simp] theorem mem_insert {x name : String} {set : NameSet} :
    x ∈ set.insert name ↔ x = name ∨ x ∈ set :=
  mem_insertName

theorem eq_of_names {a b : NameSet} (h : a.names = b.names) : a = b := by
  cases a
  cases b
  cases h
  rfl

theorem isEmpty_eq_true_iff {set : NameSet} : set.isEmpty = true ↔ set = empty := by
  rw [isEmpty, List.isEmpty_iff]
  constructor
  · exact fun hnames => eq_of_names hnames
  · intro heq
    rw [heq]
    rfl

/-- A name behind all others is put at the end. -/
theorem insertName_of_forall_lt {name : String} {names : List String}
    (h : ∀ other ∈ names, other < name) : insertName name names = names ++ [name] := by
  induction names with
  | nil => rfl
  | cons other rest ih =>
    have hother : other < name := h other List.mem_cons_self
    have hne : name ≠ other := fun heq => String.lt_irrefl name (heq ▸ hother)
    rw [insertName, if_neg (String.lt_asymm hother), if_neg hne,
      ih fun x hx => h x (List.mem_cons_of_mem other hx), List.cons_append]

theorem names_foldl_insert {rest : List String} {before : NameSet}
    (h : (before.names ++ rest).Pairwise (· < ·)) :
    (rest.foldl insert before).names = before.names ++ rest := by
  induction rest generalizing before with
  | nil => simp
  | cons name rest ih =>
    have hinsert : (before.insert name).names = before.names ++ [name] := by
      apply insertName_of_forall_lt
      intro other hother
      exact (List.pairwise_append.1 h).2.2 other hother name List.mem_cons_self
    rw [List.append_cons, ← hinsert] at h
    rw [List.foldl_cons, ih h, hinsert, List.append_assoc, List.singleton_append]

/-- A set is made again from the list of its names. -/
theorem ofList_names (set : NameSet) : ofList set.names = set :=
  eq_of_names (names_foldl_insert set.increasing)

end NameSet
end StagedBuild
