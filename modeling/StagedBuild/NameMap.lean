/-!
# Maps from names

A map from names is held as an association list whose names are strictly increasing by code point.
Two maps with the same associations are therefore equal, and the list is the order in which the map
is shown.

## Main definitions

* `NameMap`: the association lists with strictly increasing names.
* `NameMap.insert`, `NameMap.ofList`: a later association replaces an earlier one of its name.
* `NameMap.get?`: the value of a name.
-/

namespace StagedBuild

/-- A finite map from names to values. -/
structure NameMap (α : Type) where
  /-- The associations, in code point order of their names. -/
  entries : List (String × α)
  /-- No name is repeated, and the names are in order. -/
  increasing : entries.Pairwise fun a b => a.1 < b.1
deriving DecidableEq

namespace NameMap

variable {α : Type}

/-- Put an association at its place, in place of the one its name had. -/
def insertEntry (name : String) (value : α) : List (String × α) → List (String × α)
  | [] => [(name, value)]
  | other :: rest =>
    if name < other.1 then (name, value) :: other :: rest
    else if name = other.1 then (name, value) :: rest
    else other :: insertEntry name value rest

theorem mem_insertEntry {x : String × α} {name : String} {value : α}
    {entries : List (String × α)} (h : x ∈ insertEntry name value entries) :
    x = (name, value) ∨ x ∈ entries := by
  induction entries with
  | nil => simpa [insertEntry] using h
  | cons other rest ih =>
    unfold insertEntry at h
    split at h
    · simpa using h
    · split at h
      · rcases List.mem_cons.1 h with h | h
        · exact .inl h
        · exact .inr (List.mem_cons_of_mem _ h)
      · rcases List.mem_cons.1 h with h | h
        · exact .inr (by simp [h])
        · exact (ih h).imp id (List.mem_cons_of_mem _)

theorem pairwise_insertEntry {name : String} {value : α} {entries : List (String × α)}
    (h : entries.Pairwise fun a b => a.1 < b.1) :
    (insertEntry name value entries).Pairwise fun a b => a.1 < b.1 := by
  induction entries with
  | nil => simp [insertEntry]
  | cons other rest ih =>
    obtain ⟨hother, hrest⟩ := List.pairwise_cons.1 h
    unfold insertEntry
    split
    · next hlt =>
      refine List.pairwise_cons.2 ⟨fun x hx => ?_, h⟩
      rcases List.mem_cons.1 hx with rfl | hx
      · exact hlt
      · exact String.lt_trans hlt (hother x hx)
    · split
      · next heq =>
        exact List.pairwise_cons.2 ⟨fun x hx => by simpa [heq] using hother x hx, hrest⟩
      · next hnlt hne =>
        refine List.pairwise_cons.2 ⟨fun x hx => ?_, ih hrest⟩
        rcases mem_insertEntry hx with rfl | hx
        · refine String.not_le.1 fun hle => hne ?_
          exact String.le_antisymm hle (String.not_lt.1 hnlt)
        · exact hother x hx

def empty : NameMap α := ⟨[], .nil⟩

instance : Inhabited (NameMap α) := ⟨empty⟩

def insert (map : NameMap α) (name : String) (value : α) : NameMap α :=
  ⟨insertEntry name value map.entries, pairwise_insertEntry map.increasing⟩

/-- The map of the listed associations; of two for one name the later counts. -/
def ofList (entries : List (String × α)) : NameMap α :=
  entries.foldl (fun map entry => map.insert entry.1 entry.2) empty

def get? (map : NameMap α) (name : String) : Option α :=
  map.entries.lookup name

/-- The names that have a value, in order. -/
def names (map : NameMap α) : List String :=
  map.entries.map (·.1)

theorem eq_of_entries {a b : NameMap α} (h : a.entries = b.entries) : a = b := by
  cases a
  cases b
  cases h
  rfl

/-- An association whose name is behind all others is put at the end. -/
theorem insertEntry_of_forall_lt {name : String} {value : α} {entries : List (String × α)}
    (h : ∀ other ∈ entries, other.1 < name) :
    insertEntry name value entries = entries ++ [(name, value)] := by
  induction entries with
  | nil => rfl
  | cons other rest ih =>
    have hother : other.1 < name := h other List.mem_cons_self
    have hne : name ≠ other.1 := fun heq => String.lt_irrefl name (heq ▸ hother)
    rw [insertEntry, if_neg (String.lt_asymm hother), if_neg hne,
      ih fun x hx => h x (List.mem_cons_of_mem other hx), List.cons_append]

theorem entries_foldl_insert {rest : List (String × α)} {before : NameMap α}
    (h : (before.entries ++ rest).Pairwise fun a b => a.1 < b.1) :
    (rest.foldl (fun map entry => map.insert entry.1 entry.2) before).entries =
      before.entries ++ rest := by
  induction rest generalizing before with
  | nil => simp
  | cons entry rest ih =>
    have hinsert : (before.insert entry.1 entry.2).entries = before.entries ++ [entry] := by
      apply insertEntry_of_forall_lt
      intro other hother
      exact (List.pairwise_append.1 h).2.2 other hother entry List.mem_cons_self
    rw [List.append_cons, ← hinsert] at h
    rw [List.foldl_cons, ih h, hinsert, List.append_assoc, List.singleton_append]

/-- A map is made again from the list of its associations. -/
theorem ofList_entries (map : NameMap α) : ofList map.entries = map :=
  eq_of_entries (entries_foldl_insert map.increasing)

end NameMap
end StagedBuild
