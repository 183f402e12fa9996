import StagedBuild.Json.Document

/-!
# Targets

One source tree is built for three targets. Each has a name, by which documents and command lines
refer to it.

## Main definitions

* `Target`: the three targets.
* `Target.name`, `Target.ofName?`: the names, in both directions.
* `TargetMap`: a value for some of the targets, in target order.
-/

namespace StagedBuild

/-- What a bundle is built for. -/
inductive Target where
  | client
  | server
  | serviceWorker
deriving DecidableEq, Repr

namespace Target

/-- All targets, in the order in which they are planned, run and shown. -/
def all : List Target := [client, server, serviceWorker]

def name : Target → String
  | client => "client"
  | server => "server"
  | serviceWorker => "serviceworker"

/-- The target of a name, which must be spelled exactly. -/
def ofName? (name : String) : Option Target :=
  all.find? fun target => target.name = name

/-- Whether the bundle runs in a browser. -/
def runsInBrowser : Target → Bool
  | server => false
  | client | serviceWorker => true

theorem mem_all (target : Target) : target ∈ all := by
  cases target <;> decide

theorem ofName?_name (target : Target) : ofName? target.name = some target := by
  cases target <;> decide

theorem ofName?_eq_none {name : String} (h : ∀ target : Target, name ≠ target.name) :
    ofName? name = none := by
  rw [ofName?, List.find?_eq_none]
  intro target _
  simpa using (h target).symm

instance : Document Target where
  toJson target := .string target.name
  ofJson? json := json.keyword?.bind ofName?

end Target

/-- A value for some of the targets. -/
structure TargetMap (α : Type) where
  client : Option α := none
  server : Option α := none
  serviceWorker : Option α := none
deriving DecidableEq

namespace TargetMap

variable {α : Type}

def empty : TargetMap α := {}

instance : Inhabited (TargetMap α) := ⟨empty⟩

def get? (map : TargetMap α) : Target → Option α
  | .client => map.client
  | .server => map.server
  | .serviceWorker => map.serviceWorker

/-- The map in which a target has the given value. -/
def insert (map : TargetMap α) (target : Target) (value : α) : TargetMap α :=
  match target with
  | .client => { map with client := some value }
  | .server => { map with server := some value }
  | .serviceWorker => { map with serviceWorker := some value }

/-- The map of the listed values; of two for one target the later counts. -/
def ofList (entries : List (Target × α)) : TargetMap α :=
  entries.foldl (fun map entry => map.insert entry.1 entry.2) empty

/-- The targets that have a value, with it, in target order. -/
def entries (map : TargetMap α) : List (Target × α) :=
  Target.all.filterMap fun target => (map.get? target).map (target, ·)

/-- The values, in target order. -/
def values (map : TargetMap α) : List α :=
  map.entries.map (·.2)

theorem get?_insert (map : TargetMap α) (target other : Target) (value : α) :
    (map.insert target value).get? other = if other = target then some value else map.get? other := by
  cases target <;> cases other <;> rfl

@[simp] theorem get?_empty (target : Target) : (empty : TargetMap α).get? target = none := by
  cases target <;> rfl

theorem ext_get? {a b : TargetMap α} (h : ∀ target, a.get? target = b.get? target) : a = b := by
  obtain ⟨client, server, serviceWorker⟩ := a
  obtain ⟨client', server', serviceWorker'⟩ := b
  obtain rfl : client = client' := h .client
  obtain rfl : server = server' := h .server
  obtain rfl : serviceWorker = serviceWorker' := h .serviceWorker
  rfl

/-- When the listed values depend on their target only, order and repetition do not matter. -/
theorem get?_ofList_map (f : Target → α) (targets : List Target) (target : Target) :
    (ofList (targets.map fun target => (target, f target))).get? target =
      if target ∈ targets then some (f target) else none := by
  have hfold : ∀ map : TargetMap α,
      ((targets.map fun target => (target, f target)).foldl
        (fun map entry => map.insert entry.1 entry.2) map).get? target =
        if target ∈ targets then some (f target) else map.get? target := by
    induction targets with
    | nil => simp
    | cons other rest ih =>
      intro map
      rw [List.map_cons, List.foldl_cons, ih, get?_insert]
      by_cases hrest : target ∈ rest
      · simp [hrest]
      · by_cases heq : target = other
        · subst heq
          simp
        · simp [hrest, heq]
  rw [ofList, hfold, get?_empty]

/-- A map is made again from the list of its values. -/
theorem ofList_entries (map : TargetMap α) : ofList map.entries = map := by
  obtain ⟨client, server, serviceWorker⟩ := map
  cases client <;> cases server <;> cases serviceWorker <;> rfl

/-- A map that lost some of its values keeps the others in order. -/
theorem values_sublist {a b : TargetMap α}
    (h : ∀ target, a.get? target = b.get? target ∨ a.get? target = none) :
    a.values.Sublist b.values := by
  rw [values, values]
  apply List.Sublist.map
  rw [entries, entries]
  generalize Target.all = targets
  induction targets with
  | nil => exact .slnil
  | cons target rest ih =>
    simp only [List.filterMap_cons]
    rcases h target with heq | hnone
    · rw [heq]
      cases b.get? target with
      | none => exact ih
      | some value => exact ih.cons_cons _
    · rw [hnone]
      cases b.get? target with
      | none => exact ih
      | some value => exact ih.cons _

/-- A map is written as an object with the targets' names, and an unknown name is refused. -/
instance [Document α] : Document (TargetMap α) where
  toJson map := .object (map.entries.map fun entry => (entry.1.name, Document.toJson entry.2))
  ofJson? json := do
    let members ← Json.mapOf? Document.ofJson? json
    ofList <$> members.mapM fun member => (·, member.2) <$> Target.ofName? member.1

end TargetMap
end StagedBuild
