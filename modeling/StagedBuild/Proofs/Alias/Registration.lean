import Mathlib.Data.List.Induction
import Mathlib.Data.List.Nodup
import Mathlib.Data.Nat.Find
import StagedBuild.Alias.Table

/-!
# Registering a list of aliases

A list of aliases makes a table when no name in it is empty or stands twice. Otherwise the first
name that is empty or stands earlier in the list is the one that is refused.

## Main definitions

* `AliasTable.Sound`: the names can all be registered one after the other.
* `AliasTable.FaultAt`, `AliasTable.FirstFault`: an index whose name is empty or stands earlier in
  the list, and the least such index.
* `AliasTable.refusal`: why such a name is refused.

## Main results

* `AliasTable.sound_iff`: names are sound when no index is at fault.
* `AliasTable.ofEntries_eq_ok_iff`: sound names make a table, with the entries as they are listed.
* `AliasTable.ofEntries_eq_error`: the least index at fault decides the failure.
-/

namespace StagedBuild
namespace AliasTable

/-- No name is empty, and no name stands twice. -/
def Sound (names : List String) : Prop :=
  (∀ name ∈ names, name ≠ "") ∧ names.Nodup

/-- The name at the index is empty or equals an earlier one. -/
def FaultAt (names : List String) (index : Nat) : Prop :=
  ∃ h : index < names.length, names[index] = "" ∨ names[index] ∈ names.take index

/-- The least index at fault, with its name. -/
structure FirstFault (names : List String) (index : Nat) (name : String) : Prop where
  getElem? : names[index]? = some name
  fault : FaultAt names index
  least : ∀ earlier < index, ¬ FaultAt names earlier

def refusal (name : String) : BuildFailure :=
  if name = "" then .emptyAliasName else .duplicateAlias name

-- ════════════════════════════════════════════════════════════════════════
-- Names
-- ════════════════════════════════════════════════════════════════════════

theorem sound_concat {names : List String} {name : String} :
    Sound (names ++ [name]) ↔ Sound names ∧ name ≠ "" ∧ name ∉ names := by
  simp only [Sound, List.forall_mem_append, List.nodup_append, List.nodup_singleton, true_and,
    List.mem_singleton, forall_eq]
  constructor
  · rintro ⟨⟨hnames, hname⟩, hnodup, hdisjoint⟩
    exact ⟨⟨hnames, hnodup⟩, hname, fun hmem => hdisjoint name hmem rfl⟩
  · rintro ⟨⟨hnames, hnodup⟩, hname, hfresh⟩
    refine ⟨⟨hnames, hname⟩, hnodup, ?_⟩
    rintro other hother rfl
    exact hfresh hother

theorem Sound.of_append {names others : List String} (h : Sound (names ++ others)) : Sound names :=
  ⟨fun name hmem => h.1 name (List.mem_append_left others hmem), (List.nodup_append.1 h.2).1⟩

theorem faultAt_concat {names : List String} {name : String} {index : Nat} :
    FaultAt (names ++ [name]) index ↔
      FaultAt names index ∨ (index = names.length ∧ (name = "" ∨ name ∈ names)) := by
  constructor
  · rintro ⟨hindex, hfault⟩
    by_cases hlt : index < names.length
    · rw [List.getElem_append_left hlt, List.take_append_of_le_length (Nat.le_of_lt hlt)] at hfault
      exact .inl ⟨hlt, hfault⟩
    · have heq : index = names.length := by
        simp only [List.length_append, List.length_singleton] at hindex
        omega
      subst heq
      simp only [List.getElem_concat_length, List.take_left] at hfault
      exact .inr ⟨rfl, hfault⟩
  · rintro (⟨hlt, hfault⟩ | ⟨rfl, hfault⟩)
    · have hindex : index < (names ++ [name]).length := by
        rw [List.length_append]
        omega
      refine ⟨hindex, ?_⟩
      rw [List.getElem_append_left hlt, List.take_append_of_le_length (Nat.le_of_lt hlt)]
      exact hfault
    · refine ⟨by simp, ?_⟩
      simpa using hfault

theorem sound_iff {names : List String} : Sound names ↔ ∀ index, ¬ FaultAt names index := by
  induction names using List.reverseRecOn with
  | nil => simp [Sound, FaultAt]
  | append_singleton names name ih =>
    simp only [sound_concat, ih, faultAt_concat, not_or, not_and]
    constructor
    · rintro ⟨hnames, hname, hfresh⟩ index
      exact ⟨hnames index, fun _ => ⟨hname, hfresh⟩⟩
    · intro h
      exact ⟨fun index => (h index).1, (h names.length).2 rfl⟩

/-- What comes before the least index at fault is sound. -/
theorem sound_take {names : List String} {index : Nat}
    (hfirst : ∀ earlier < index, ¬ FaultAt names earlier) : Sound (names.take index) := by
  rw [sound_iff]
  rintro earlier ⟨hlt, hfault⟩
  have hearlier : earlier < index := by
    rw [List.length_take] at hlt
    omega
  have hlength : earlier < names.length := by
    rw [List.length_take] at hlt
    omega
  apply hfirst earlier hearlier
  refine ⟨hlength, ?_⟩
  rw [List.getElem_take, List.take_take, Nat.min_eq_left (Nat.le_of_lt hearlier)] at hfault
  exact hfault

-- ════════════════════════════════════════════════════════════════════════
-- Tables
-- ════════════════════════════════════════════════════════════════════════

theorem register_of_sound (table : AliasTable) {entry : AliasEntry}
    (h : Sound (table.entries.map (·.name) ++ [entry.name])) :
    table.register entry = .ok { table with entries := table.entries ++ [entry] } := by
  obtain ⟨-, hname, hfresh⟩ := sound_concat.1 h
  rw [register, if_neg hname, if_neg hfresh]

theorem register_of_fault (table : AliasTable) {entry : AliasEntry}
    (h : entry.name = "" ∨ entry.name ∈ table.entries.map (·.name)) :
    table.register entry = .error (refusal entry.name) := by
  by_cases hname : entry.name = ""
  · rw [register, refusal, if_pos hname, if_pos hname]
  · have htaken := h.resolve_left hname
    rw [register, refusal, if_neg hname, if_neg hname, if_pos htaken]

theorem foldlM_register_of_sound {entries : List AliasEntry} (table : AliasTable)
    (h : Sound (table.entries.map (·.name) ++ entries.map (·.name))) :
    entries.foldlM register table = .ok { table with entries := table.entries ++ entries } := by
  induction entries generalizing table with
  | nil => simp [pure, Except.pure]
  | cons entry rest ih =>
    rw [List.map_cons, List.append_cons] at h
    have hregister := register_of_sound table h.of_append
    have hrest := ih { table with entries := table.entries ++ [entry] } (by simpa using h)
    rw [List.append_assoc, List.singleton_append] at hrest
    rw [List.foldlM_cons, hregister]
    exact hrest

theorem ofEntries_of_sound {entries : List AliasEntry} (h : Sound (entries.map (·.name)))
    (extensions : List String) : ofEntries entries extensions = .ok ⟨entries, extensions⟩ := by
  rw [ofEntries, foldlM_register_of_sound _ (by simpa [empty] using h)]
  simp [empty]

theorem ofEntries_append_eq_error {before : List AliasEntry} {entry : AliasEntry}
    (hbefore : Sound (before.map (·.name)))
    (hfault : entry.name = "" ∨ entry.name ∈ before.map (·.name)) (after : List AliasEntry)
    (extensions : List String) :
    ofEntries (before ++ entry :: after) extensions = .error (refusal entry.name) := by
  have htable := ofEntries_of_sound hbefore extensions
  have hregister := register_of_fault ⟨before, extensions⟩ hfault
  rw [ofEntries] at htable
  rw [ofEntries, List.foldlM_append, htable]
  show (entry :: after).foldlM register ⟨before, extensions⟩ = _
  rw [List.foldlM_cons, hregister]
  rfl

/-- The least index at fault decides the failure, whatever comes after it. -/
theorem ofEntries_eq_error {entries : List AliasEntry} {index : Nat} {name : String}
    (h : FirstFault (entries.map (·.name)) index name) (extensions : List String) :
    ofEntries entries extensions = .error (refusal name) := by
  obtain ⟨hname, ⟨hlt, hfault⟩, hfirst⟩ := h
  have hindex : index < entries.length := by simpa using hlt
  obtain rfl : entries[index].name = name := by
    rw [List.getElem?_map, List.getElem?_eq_getElem hindex] at hname
    simpa using hname
  have hbefore : Sound ((entries.take index).map (·.name)) := by
    rw [List.map_take]
    exact sound_take hfirst
  rw [List.getElem_map, ← List.map_take] at hfault
  have hsplit : entries.take index ++ entries[index] :: entries.drop (index + 1) = entries := by
    rw [← List.drop_eq_getElem_cons hindex, List.take_append_drop]
  have herror := ofEntries_append_eq_error hbefore hfault (entries.drop (index + 1)) extensions
  rwa [hsplit] at herror

theorem exists_firstFault {names : List String} (h : ¬ Sound names) :
    ∃ index name, FirstFault names index name := by
  classical
  have hfault : ∃ index, FaultAt names index := by
    rw [sound_iff] at h
    exact not_forall_not.1 h
  obtain ⟨hlt, -⟩ := Nat.find_spec hfault
  refine ⟨Nat.find hfault, _, List.getElem?_eq_getElem hlt, Nat.find_spec hfault, ?_⟩
  intro earlier hearlier
  exact Nat.find_min hfault hearlier

theorem ofEntries_eq_ok_iff {entries : List AliasEntry} {extensions : List String}
    {table : AliasTable} : ofEntries entries extensions = .ok table ↔
      Sound (entries.map (·.name)) ∧ table = ⟨entries, extensions⟩ := by
  constructor
  · intro h
    by_cases hsound : Sound (entries.map (·.name))
    · rw [ofEntries_of_sound hsound] at h
      cases h
      exact ⟨hsound, rfl⟩
    · obtain ⟨index, name, hfirst⟩ := exists_firstFault hsound
      rw [ofEntries_eq_error hfirst] at h
      cases h
  · rintro ⟨hsound, rfl⟩
    exact ofEntries_of_sound hsound extensions

end AliasTable
end StagedBuild
