import StagedBuild.FileTree
import StagedBuild.Proofs.Path.Names

/-!
# What changes to a tree leave alone

Where a path leads is a matter of its names, so long as there are directories on the way. Directories
are never removed, so a path that leads somewhere leads there in every later tree. Making a directory
changes nothing that stands, and writing a file changes what stands where its path leads.

## Main definitions

* `FileTree.follow`, `FileTree.destination`: where a path leads, whatever stands on the way.
* `FileTree.KeepsBut`: all that stands in a tree stands in another, but for files that are listed.

## Main results

* `FileTree.follow_of_no_up`: parts without a step up only lead down.
* `FileTree.eq_destination_of_locate`: a path that leads somewhere leads to its destination.
* `FileTree.KeepsBut.read`: a file that is not listed is read as before.
* `FileTree.keepsBut_ensureDirectory`, `FileTree.keepsBut_write`: the two kinds of change.
-/

namespace StagedBuild
namespace FileTree

-- ════════════════════════════════════════════════════════════════════════
-- Where a path leads
-- ════════════════════════════════════════════════════════════════════════

/-- The location that parts lead to when there is a directory wherever one is needed. -/
def follow (location : List String) : List String → List String
  | [] => location
  | part :: rest =>
    if part = "" ∨ part = "." then follow location rest
    else if part = ".." then follow location.dropLast rest
    else follow (location ++ [part]) rest

theorem follow_append (location parts more : List String) :
    follow location (parts ++ more) = follow (follow location parts) more := by
  induction parts generalizing location with
  | nil => rfl
  | cons part rest ih =>
    rw [List.cons_append, follow, follow]
    split
    · exact ih location
    · split
      · exact ih location.dropLast
      · exact ih (location ++ [part])

section Names

variable {part : String} {parts : List String}

theorem filter_cons_of_skipped (h : part = "" ∨ part = ".") (rest : List String) :
    (part :: rest).filter (fun part => part ≠ "" && part ≠ ".") =
      rest.filter fun part => part ≠ "" && part ≠ "." := by
  rcases h with rfl | rfl <;> rfl

theorem filter_cons_of_name (h : ¬ (part = "" ∨ part = ".")) (rest : List String) :
    (part :: rest).filter (fun part => part ≠ "" && part ≠ ".") =
      part :: rest.filter fun part => part ≠ "" && part ≠ "." :=
  List.filter_cons_of_pos (by simpa [not_or] using h)

theorem follow_filter (location parts : List String) :
    follow location (parts.filter fun part => part ≠ "" && part ≠ ".") = follow location parts := by
  induction parts generalizing location with
  | nil => rfl
  | cons part rest ih =>
    by_cases hskip : part = "" ∨ part = "."
    · rw [filter_cons_of_skipped hskip, ih, follow, if_pos hskip]
    · rw [filter_cons_of_name hskip, follow, follow, if_neg hskip, if_neg hskip, ih, ih]

/-- Parts without a step up lead down, by all that are names. -/
theorem follow_of_no_up (location : List String) (hup : ".." ∉ parts) :
    follow location parts =
      location ++ parts.filter fun part => part ≠ "" && part ≠ "." := by
  induction parts generalizing location with
  | nil => simp [follow]
  | cons part rest ih =>
    obtain ⟨hpart, hrest⟩ := not_or.1 (mt List.mem_cons.2 hup)
    by_cases hskip : part = "" ∨ part = "."
    · rw [filter_cons_of_skipped hskip, follow, if_pos hskip, ih location hrest]
    · have hne : part ≠ ".." := fun heq => hpart heq.symm
      rw [filter_cons_of_name hskip, follow, if_neg hskip, if_neg hne, ih _ hrest,
        List.append_assoc, List.singleton_append]

theorem prefix_follow (location : List String) (hup : ".." ∉ parts) :
    location <+: follow location parts :=
  ⟨_, (follow_of_no_up location hup).symm⟩

end Names

/-- One part of a walk: it needs a directory to start from and a name that is not too long. -/
theorem walk_cons_eq_ok_iff {tree : FileTree} {location rest place : List String} {part : String} :
    tree.walk location (part :: rest) = .ok place ↔
      tree.node? location = some .directory ∧ part.utf8ByteSize ≤ nameLimit ∧
        tree.walk (follow location [part]) rest = .ok place := by
  rw [walk]
  cases tree.node? location with
  | none => simp
  | some node =>
    cases node with
    | file content => simp
    | unreadable => simp
    | directory =>
      by_cases hskip : part = "" ∨ part = "."
      · have hbytes : part.utf8ByteSize ≤ nameLimit := by
          rcases hskip with rfl | rfl <;> decide
        simp [follow, hskip, hbytes]
      · by_cases hup : part = ".."
        · subst hup
          have hbytes : "..".utf8ByteSize ≤ nameLimit := by decide
          simp [follow, hbytes]
        · by_cases hbytes : part.utf8ByteSize ≤ nameLimit
          · simp [follow, hskip, hup, hbytes]
          · simp [hskip, hup, hbytes]

theorem eq_follow_of_walk {tree : FileTree} {location parts place : List String}
    (h : tree.walk location parts = .ok place) : place = follow location parts := by
  induction parts generalizing location with
  | nil => exact (Except.ok.inj h).symm
  | cons part rest ih =>
    obtain ⟨-, -, hrest⟩ := walk_cons_eq_ok_iff.1 h
    rw [ih hrest, ← follow_append, List.singleton_append]

/-- The location that a path leads to, if it leads anywhere. -/
def destination (tree : FileTree) (path : String) : List String :=
  follow (if Path.isAbsolute path then [] else tree.here) (Path.names path)

theorem locate_eq_ok_iff {tree : FileTree} {path : String} {location : List String} :
    tree.locate path = .ok location ↔ path ≠ "" ∧ isUsable path = true ∧
      tree.walk (if Path.isAbsolute path then [] else tree.here) (Path.parts path) =
        .ok location := by
  rw [locate]
  by_cases hempty : path = ""
  · simp [hempty]
  · cases isUsable path <;> simp [hempty]

theorem eq_destination_of_locate {tree : FileTree} {path : String} {location : List String}
    (h : tree.locate path = .ok location) : location = tree.destination path := by
  obtain ⟨-, -, hwalk⟩ := locate_eq_ok_iff.1 h
  rw [destination, Path.names, follow_filter]
  exact eq_follow_of_walk hwalk

/-- Where a relative path below another one leads. -/
theorem destination_join (tree : FileTree) (base : String) {below : String}
    (hrelative : Path.isAbsolute below = false) (hup : ".." ∉ Path.parts below) :
    tree.destination (Path.join base below) = tree.destination base ++ Path.names below := by
  rw [destination, destination, Path.isAbsolute_join hrelative, Path.names_join hrelative,
    follow_append, Path.names, Path.names, follow_filter _ (Path.parts below),
    follow_of_no_up _ hup]

-- ════════════════════════════════════════════════════════════════════════
-- What stands at a location
-- ════════════════════════════════════════════════════════════════════════

section Set

variable {tree : FileTree} {location other : List String} {node : FileNode}

@[simp] theorem here_set : (tree.set location node).here = tree.here := rfl

theorem node?_set_self (h : location ≠ []) : (tree.set location node).node? location = some node := by
  simp [node?, set, h]

theorem lookup_filter_ne {α : Type} (h : other ≠ location) (entries : List (List String × α)) :
    (entries.filter (·.1 ≠ location)).lookup other = entries.lookup other := by
  induction entries with
  | nil => rfl
  | cons entry rest ih =>
    by_cases hentry : entry.1 = location
    · have hne : (other == entry.1) = false := by simpa [hentry] using h
      rw [List.filter_cons_of_neg (by simpa using hentry), ih, List.lookup_cons, hne]
    · rw [List.filter_cons_of_pos (by simpa using hentry), List.lookup_cons, List.lookup_cons, ih]

theorem node?_set_of_ne (h : other ≠ location) :
    (tree.set location node).node? other = tree.node? other := by
  have hne : (other == location) = false := by simpa using h
  rw [node?, node?, set]
  simp only [List.lookup_cons, hne, lookup_filter_ne h]

/-- The root is a directory. -/
theorem ne_nil_of_node? (h : tree.node? location ≠ some .directory) : location ≠ [] := by
  rintro rfl
  exact h rfl

end Set

-- ════════════════════════════════════════════════════════════════════════
-- What is kept
-- ════════════════════════════════════════════════════════════════════════

/-- One stands at the same place in both trees, and all that stands in the first one stands in the
second, except that files at the listed locations may have been replaced. -/
structure KeepsBut (replaced : List (List String)) (old new : FileTree) : Prop where
  here : new.here = old.here
  node : ∀ location node, old.node? location = some node →
    location ∉ replaced ∨ node = .directory → new.node? location = some node

namespace KeepsBut

variable {replaced more : List (List String)} {old middle new : FileTree}

theorem refl (replaced : List (List String)) (tree : FileTree) : KeepsBut replaced tree tree :=
  ⟨rfl, fun _ _ h _ => h⟩

theorem mono (hsubset : replaced ⊆ more) (h : KeepsBut replaced old new) : KeepsBut more old new := by
  refine ⟨h.here, ?_⟩
  intro location node hnode hkept
  exact h.node location node hnode (hkept.imp_left fun hnot hmem => hnot (hsubset hmem))

theorem trans (h : KeepsBut replaced old middle) (h' : KeepsBut replaced middle new) :
    KeepsBut replaced old new := by
  refine ⟨h'.here.trans h.here, ?_⟩
  intro location node hnode hkept
  exact h'.node location node (h.node location node hnode hkept) hkept

theorem set {tree : FileTree} {location : List String} {node : FileNode}
    (h : ∀ standing, tree.node? location = some standing →
      location ∈ replaced ∧ standing ≠ .directory) :
    KeepsBut replaced tree (tree.set location node) := by
  refine ⟨here_set, ?_⟩
  intro other standing hstanding hkept
  rw [node?_set_of_ne]
  · exact hstanding
  · rintro rfl
    obtain ⟨hmem, hne⟩ := h standing hstanding
    exact hkept.elim (absurd hmem) hne

theorem destination_eq (h : KeepsBut replaced old new) (path : String) :
    new.destination path = old.destination path := by
  rw [destination, destination, h.here]

theorem walk (h : KeepsBut replaced old new) {location parts place : List String}
    (hwalk : old.walk location parts = .ok place) : new.walk location parts = .ok place := by
  induction parts generalizing location with
  | nil => exact hwalk
  | cons part rest ih =>
    obtain ⟨hdirectory, hbytes, hrest⟩ := walk_cons_eq_ok_iff.1 hwalk
    have hdirectory := h.node location .directory hdirectory (.inr rfl)
    exact walk_cons_eq_ok_iff.2 ⟨hdirectory, hbytes, ih hrest⟩

theorem locate (h : KeepsBut replaced old new) {path : String} {location : List String}
    (hlocate : old.locate path = .ok location) : new.locate path = .ok location := by
  rw [locate_eq_ok_iff] at hlocate ⊢
  obtain ⟨hempty, husable, hwalk⟩ := hlocate
  rw [h.here]
  exact ⟨hempty, husable, h.walk hwalk⟩

end KeepsBut

theorem read_eq_ok_iff {tree : FileTree} {path content : String} :
    tree.read path = .ok content ↔
      ∃ location, tree.locate path = .ok location ∧
        tree.node? location = some (.file content) := by
  rw [read]
  cases hlocate : tree.locate path with
  | error failure => simp [bind, Except.bind]
  | ok location =>
    cases hnode : tree.node? location with
    | none => simp [bind, Except.bind, hnode]
    | some node => cases node <;> simp [bind, Except.bind, hnode]

theorem isFile_of_read {tree : FileTree} {path content : String} (h : tree.read path = .ok content) :
    tree.isFile path = true := by
  obtain ⟨location, hlocate, hnode⟩ := read_eq_ok_iff.1 h
  simp only [isFile, at?, hlocate, hnode]

/-- A file is read as before unless it may have been replaced. -/
theorem KeepsBut.read {replaced : List (List String)} {old new : FileTree} {path content : String}
    (h : KeepsBut replaced old new) (hpath : old.destination path ∉ replaced)
    (hread : old.read path = .ok content) : new.read path = .ok content := by
  obtain ⟨location, hlocate, hnode⟩ := read_eq_ok_iff.1 hread
  rw [← eq_destination_of_locate hlocate] at hpath
  exact read_eq_ok_iff.2 ⟨location, h.locate hlocate, h.node location _ hnode (.inl hpath)⟩

-- ════════════════════════════════════════════════════════════════════════
-- Directories and files
-- ════════════════════════════════════════════════════════════════════════

section Changes

variable {tree later : FileTree} {path content : String}

theorem keepsBut_makeDirectory (h : tree.makeDirectory path = .ok later) :
    KeepsBut [] tree later := by
  rw [makeDirectory] at h
  cases hlocate : tree.locate (if Path.trimSlashes path = "" then path else Path.trimSlashes path) with
  | error failure => simp [hlocate, bind, Except.bind] at h
  | ok location =>
    simp only [hlocate, bind, Except.bind] at h
    split at h
    · cases h
    · next hnone =>
      obtain rfl := Except.ok.inj h
      apply KeepsBut.set
      intro standing hstanding
      rw [hnone] at hstanding
      cases hstanding

theorem keepsBut_makeMissing (h : tree.makeMissing path = .ok later) : KeepsBut [] tree later := by
  rw [makeMissing] at h
  split at h
  · split at h
    · obtain rfl := Except.ok.inj h
      exact .refl [] tree
    · cases h
  · exact keepsBut_makeDirectory h

/-- Making directories takes nothing away, even where it fails. -/
theorem keepsBut_makeAll (tree : FileTree) (paths : List String) :
    KeepsBut [] tree (tree.makeAll paths).1 := by
  induction paths generalizing tree with
  | nil => exact .refl [] tree
  | cons path rest ih =>
    rw [makeAll]
    split
    · next later hmake => exact (keepsBut_makeMissing hmake).trans (ih later)
    · exact .refl [] tree

theorem keepsBut_ensureDirectory (tree : FileTree) (path : String) :
    KeepsBut [] tree (tree.ensureDirectory path).1 := by
  rw [ensureDirectory]
  split
  · exact .refl [] tree
  · split
    · exact keepsBut_makeAll tree _
    · exact .refl [] tree

theorem write_eq_ok (h : tree.write path content = .ok later) :
    ∃ location, tree.locate path = .ok location ∧ tree.node? location ≠ some .directory ∧
      later = tree.set location (.file content) := by
  rw [write] at h
  cases hlocate : tree.locate path with
  | error failure => simp [hlocate, bind, Except.bind] at h
  | ok location =>
    simp only [hlocate, bind, Except.bind] at h
    split at h
    · cases h
    · next hne => exact ⟨location, rfl, hne, (Except.ok.inj h).symm⟩

theorem keepsBut_write (h : tree.write path content = .ok later) :
    KeepsBut [tree.destination path] tree later := by
  obtain ⟨location, hlocate, hne, rfl⟩ := write_eq_ok h
  rw [← eq_destination_of_locate hlocate]
  apply KeepsBut.set
  rintro standing hstanding
  refine ⟨List.mem_singleton_self location, ?_⟩
  rintro rfl
  exact hne hstanding

theorem read_of_write (h : tree.write path content = .ok later) : later.read path = .ok content := by
  obtain ⟨location, hlocate, hne, rfl⟩ := write_eq_ok h
  have hlater := (keepsBut_write h).locate hlocate
  exact read_eq_ok_iff.2 ⟨location, hlater, node?_set_self (ne_nil_of_node? hne)⟩

end Changes

end FileTree
end StagedBuild
