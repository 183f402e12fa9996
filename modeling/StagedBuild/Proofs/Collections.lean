import Mathlib.Data.List.Nodup
import StagedBuild.NameMap
import StagedBuild.NameSet
import StagedBuild.Target

/-!
# Sets and maps in any order

A set of names and a map do not depend on the order in which their members are listed. For a map no
name may be listed twice, since the later value would count.

## Main results

* `lookup_eq_some_iff_mem`: looking up a name that stands once.
* `NameSet.ext_mem`, `NameMap.ext_get?`: a collection is determined by what is found in it.
* `NameSet.ofList_eq_of_perm`, `NameMap.ofList_eq_of_perm`, `TargetMap.ofList_eq_of_perm`: the
  collections of a list and of the same list in another order are equal.
-/

namespace StagedBuild

/-- When no name stands twice, a name has the value that stands beside it. -/
theorem lookup_eq_some_iff_mem {α : Type} {xs : List (String × α)} (hnodup : (xs.map (·.1)).Nodup)
    {name : String} {value : α} : xs.lookup name = some value ↔ (name, value) ∈ xs := by
  rw [List.lookup_eq_some_iff]
  constructor
  · rintro ⟨before, after, rfl, -⟩
    exact List.mem_append_right before List.mem_cons_self
  · intro hmem
    obtain ⟨before, after, rfl⟩ := List.append_of_mem hmem
    refine ⟨before, after, rfl, ?_⟩
    intro other hother
    rw [List.map_append, List.nodup_append] at hnodup
    have hne := hnodup.2.2 other.1 (List.mem_map_of_mem hother) name List.mem_cons_self
    exact bne_iff_ne.2 hne.symm

theorem lookup_eq_of_perm {α : Type} {xs ys : List (String × α)} (h : xs.Perm ys)
    (hnodup : (xs.map (·.1)).Nodup) (name : String) : xs.lookup name = ys.lookup name := by
  induction h with
  | nil => rfl
  | cons x _ ih =>
    rw [List.map_cons, List.nodup_cons] at hnodup
    rw [List.lookup_cons, List.lookup_cons, ih hnodup.2]
  | swap x y xs =>
    have hne : y.1 ≠ x.1 := by
      intro heq
      simp [heq] at hnodup
    obtain ⟨first, v⟩ := x
    obtain ⟨second, w⟩ := y
    rw [List.lookup_cons, List.lookup_cons, List.lookup_cons, List.lookup_cons]
    cases hfirst : name == first <;> cases hsecond : name == second
    case true.true => exact absurd ((eq_of_beq hsecond).symm.trans (eq_of_beq hfirst)) hne
    all_goals rfl
  | trans hperm _ ih ih' =>
    have hnodup' := (hperm.map (·.1)).nodup_iff.1 hnodup
    rw [ih hnodup, ih' hnodup']

namespace NameSet

theorem mem_foldl_insert {x : String} {names : List String} {set : NameSet} :
    x ∈ names.foldl insert set ↔ x ∈ set ∨ x ∈ names := by
  induction names generalizing set with
  | nil => simp
  | cons name rest ih =>
    rw [List.foldl_cons, ih, mem_insert, List.mem_cons]
    tauto

theorem notMem_empty {x : String} : x ∉ empty :=
  List.not_mem_nil

theorem mem_ofList {x : String} {names : List String} : x ∈ ofList names ↔ x ∈ names := by
  rw [ofList, mem_foldl_insert]
  exact or_iff_right notMem_empty

theorem mem_union {x : String} {a b : NameSet} : x ∈ a.union b ↔ x ∈ a ∨ x ∈ b :=
  mem_foldl_insert

/-- Sets with the same members are equal. -/
theorem ext_mem {a b : NameSet} (h : ∀ name, name ∈ a ↔ name ∈ b) : a = b := by
  have hnodup : ∀ set : NameSet, set.names.Nodup := fun set =>
    set.increasing.imp fun hlt => String.ne_of_lt hlt
  have hperm : a.names.Perm b.names := (List.perm_ext_iff_of_nodup (hnodup a) (hnodup b)).2 h
  apply eq_of_names
  refine hperm.eq_of_pairwise ?_ a.increasing b.increasing
  intro x y _ _ hlt hgt
  exact absurd hgt (String.lt_asymm hlt)

theorem ofList_eq_of_perm {names others : List String} (h : names.Perm others) :
    ofList names = ofList others := by
  apply ext_mem
  intro name
  rw [mem_ofList, mem_ofList, h.mem_iff]

end NameSet

namespace NameMap

variable {α : Type}

theorem nodup_names (map : NameMap α) : (map.entries.map (·.1)).Nodup := by
  rw [List.Nodup, List.pairwise_map]
  exact map.increasing.imp fun hlt => String.ne_of_lt hlt

theorem get?_eq_some_iff {map : NameMap α} {name : String} {value : α} :
    map.get? name = some value ↔ (name, value) ∈ map.entries :=
  lookup_eq_some_iff_mem map.nodup_names

/-- Maps that give each name the same value are equal. -/
theorem ext_get? {a b : NameMap α} (h : ∀ name, a.get? name = b.get? name) : a = b := by
  have hmem : ∀ entry, entry ∈ a.entries ↔ entry ∈ b.entries := by
    rintro ⟨name, value⟩
    rw [← get?_eq_some_iff, ← get?_eq_some_iff, h]
  have hperm : a.entries.Perm b.entries :=
    (List.perm_ext_iff_of_nodup a.nodup_names.of_map b.nodup_names.of_map).2 hmem
  apply eq_of_entries
  refine hperm.eq_of_pairwise ?_ a.increasing b.increasing
  intro x y _ _ hlt hgt
  exact absurd hgt (String.lt_asymm hlt)

/-- A new name is put somewhere among the others. -/
theorem perm_insertEntry {name : String} {value : α} {entries : List (String × α)}
    (h : name ∉ entries.map (·.1)) :
    (insertEntry name value entries).Perm ((name, value) :: entries) := by
  induction entries with
  | nil => exact .refl _
  | cons other rest ih =>
    rw [List.map_cons, List.mem_cons, not_or] at h
    rw [insertEntry, if_neg h.1]
    split
    · exact .refl _
    · exact ((ih h.2).cons other).trans (.swap _ _ _)

theorem perm_foldl_insert {rest : List (String × α)} {map : NameMap α}
    (h : ((map.entries ++ rest).map (·.1)).Nodup) :
    (rest.foldl (fun map entry => map.insert entry.1 entry.2) map).entries.Perm
      (map.entries ++ rest) := by
  induction rest generalizing map with
  | nil => simp
  | cons entry rest ih =>
    have hmiddle : (map.entries ++ entry :: rest).Perm (entry :: (map.entries ++ rest)) :=
      List.perm_middle
    have hnodup := (hmiddle.map (·.1)).nodup_iff.1 h
    rw [List.map_cons, List.nodup_cons] at hnodup
    have hnew : entry.1 ∉ map.entries.map (·.1) := fun hmem =>
      hnodup.1 (by rw [List.map_append]; exact List.mem_append_left _ hmem)
    have hinsert : (map.insert entry.1 entry.2).entries.Perm (entry :: map.entries) :=
      perm_insertEntry hnew
    have hall : ((map.insert entry.1 entry.2).entries ++ rest).Perm (map.entries ++ entry :: rest) :=
      (hinsert.append_right rest).trans hmiddle.symm
    exact (ih ((hall.map (·.1)).nodup_iff.2 h)).trans hall

theorem get?_ofList {entries : List (String × α)} (hnodup : (entries.map (·.1)).Nodup)
    (name : String) : (ofList entries).get? name = entries.lookup name :=
  lookup_eq_of_perm (perm_foldl_insert hnodup) (ofList entries).nodup_names name

theorem ofList_eq_of_perm {entries others : List (String × α)} (h : entries.Perm others)
    (hnodup : (entries.map (·.1)).Nodup) : ofList entries = ofList others := by
  apply ext_get?
  intro name
  rw [get?_ofList hnodup, get?_ofList ((h.map (·.1)).nodup_iff.1 hnodup), lookup_eq_of_perm h hnodup]

end NameMap

namespace TargetMap

variable {α : Type}

theorem insert_comm {first second : Target} (h : first ≠ second) (x y : α) (map : TargetMap α) :
    (map.insert first x).insert second y = (map.insert second y).insert first x := by
  apply ext_get?
  intro target
  simp only [get?_insert]
  by_cases hsecond : target = second
  · simp [hsecond, h.symm]
  · simp [hsecond]

theorem ofList_eq_of_perm {entries others : List (Target × α)} (h : entries.Perm others)
    (hnodup : (entries.map (·.1)).Nodup) : ofList entries = ofList others := by
  rw [ofList, ofList]
  apply h.foldl_eq'
  intro x hx y hy map
  by_cases hxy : x.1 = y.1
  · obtain rfl := List.inj_on_of_nodup_map hnodup hx hy hxy
    rfl
  · exact insert_comm hxy x.2 y.2 map

end TargetMap
end StagedBuild
