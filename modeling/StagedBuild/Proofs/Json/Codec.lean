import StagedBuild.Json.Document
import StagedBuild.Proofs.Json.Reading
import StagedBuild.Proofs.Traversal

/-!
# Documents that are read back

A document is exact when its text can hold it and reading what was written gives it back. Lists,
sets and maps of exact documents are exact, and so is a record whose fields are written under
different names.

## Main definitions

* `Document.Exact`: the property, with a bound on the nesting.
* `Document.RoundTrips`: what it means for texts.

## Main results

* `Json.fields?_object`: the members that a record is written as are its fields.
* `Document.exact_of_keyword`, `Document.exact_of_fields`: keywords and records are exact.
* `Document.Exact.list`, `Document.Exact.nameMap`: so are lists and maps of exact documents.
* `Document.Exact.roundTrips`: an exact document is read back from either of its texts.
-/

namespace StagedBuild

-- ════════════════════════════════════════════════════════════════════════
-- Reading values
-- ════════════════════════════════════════════════════════════════════════

namespace Json

theorem listOf?_array {α : Type} {write : α → Json} {read : Json → Option α}
    (h : ∀ x, read (write x) = some x) (xs : List α) :
    listOf? read (.array (xs.map write)) = some xs := by
  rw [listOf?, Traversal.mapM_map_of_forall h, List.map_id']

theorem mapOf?_object {ι α : Type} (name : ι → String) {write : α → Json} {read : Json → Option α}
    (h : ∀ x, read (write x) = some x) (entries : List (ι × α)) :
    mapOf? read (.object (entries.map fun entry => (name entry.1, write entry.2))) =
      some (entries.map fun entry => (name entry.1, entry.2)) := by
  rw [mapOf?]
  apply Traversal.mapM_map_of_forall
  intro entry
  rw [h]
  rfl

/-- Members that are some of the fields, in their order, are the fields of the record. -/
theorem fields?_object {source : RecordSource} {names : List String}
    {members : List (String × Json)} (hnodup : names.Nodup)
    (hnames : (members.map (·.1)).Sublist names) :
    fields? source names (.object members) = some members := by
  have hmem : ∀ member ∈ members, member.1 ∈ names := fun member hmember =>
    hnames.mem (List.mem_map_of_mem hmember)
  have hknown : members.filter (fun member => names.contains member.1) = members := by
    rw [List.filter_eq_self]
    intro member hmember
    exact List.contains_iff_mem.2 (hmem member hmember)
  have hothers : members.filter (fun member => !names.contains member.1) = [] := by
    rw [List.filter_eq_nil_iff]
    intro member hmember
    simp [hmem member hmember]
  rw [fields?, hknown, hothers, if_pos ⟨hnodup.sublist hnames, .inr rfl⟩]

theorem fields?_object_bind {α : Type} {source : RecordSource} {names : List String}
    {members : List (String × Json)} {build : Fields → Option α} {value : α}
    (hnodup : names.Nodup) (hnames : (members.map (·.1)).Sublist names)
    (hbuild : build members = some value) :
    (fields? source names (.object members)).bind build = some value := by
  rw [fields?_object hnodup hnames, Option.bind_some, hbuild]

/-- A value whose reader does not take `null` for one of its own is read when it is given. -/
theorem option?_of_some {α : Type} {read : Json → Option α} {json : Json} {value : α}
    (hnull : read .null = none) (h : read json = some value) :
    option? read json = some (some value) := by
  have hne : json ≠ .null := by
    rintro rfl
    rw [hnull] at h
    cases h
  rw [option?, h, Option.map_eq_map, Option.map_some]
  exact hne

end Json

-- ════════════════════════════════════════════════════════════════════════
-- Documents
-- ════════════════════════════════════════════════════════════════════════

namespace Document

/-- The text of each value can hold it, with at most `depth` containers enclosing one another, and
reading what was written gives the value back. -/
structure Exact (α : Type) [Document α] (depth : Nat) : Prop where
  faithful : ∀ value : α, Json.Faithful depth (toJson value)
  ofJson?_toJson : ∀ value : α, ofJson? (toJson value) = some value

/-- Both texts of a value are read as that value. So whatever a text is read as is read again from
its own texts. -/
structure RoundTrips (α : Type) [Document α] : Prop where
  ofText?_text : ∀ value : α, ofText? (text value) = some value
  ofText?_pretty : ∀ value : α, ofText? (pretty value) = some value
  text_again : ∀ source : String,
    ((ofText? source : Option α).bind fun value => ofText? (text value)) =
      (ofText? source : Option α)
  pretty_again : ∀ source : String,
    ((ofText? source : Option α).bind fun value => ofText? (pretty value)) =
      (ofText? source : Option α)

variable {α : Type} [Document α] {depth : Nat}

theorem Exact.faithful_of_le (h : Exact α depth) (value : α) {other : Nat} (hle : depth ≤ other) :
    Json.Faithful other (toJson value) :=
  (h.faithful value).mono hle

theorem Exact.roundTrips (h : Exact α depth) (hdepth : depth ≤ Json.nestingLimit) :
    RoundTrips α := by
  have htext : ∀ value : α, ofText? (text value) = some value := by
    intro value
    rw [ofText?, text, Json.parse?_compact (h.faithful value) hdepth]
    exact h.ofJson?_toJson value
  have hpretty : ∀ value : α, ofText? (pretty value) = some value := by
    intro value
    rw [ofText?, pretty, Json.parse?_pretty (h.faithful value) hdepth]
    exact h.ofJson?_toJson value
  refine ⟨htext, hpretty, ?_, ?_⟩
  · intro source
    simp only [htext, Option.bind_fun_some]
  · intro source
    simp only [hpretty, Option.bind_fun_some]

/-- Different values have different texts. -/
theorem RoundTrips.eq_of_pretty_eq (h : RoundTrips α) {a b : α} (heq : pretty a = pretty b) :
    a = b := by
  have hread := h.ofText?_pretty a
  rw [heq, h.ofText?_pretty b] at hread
  exact (Option.some.inj hread).symm

theorem exact_string : Exact String 0 where
  faithful := .string
  ofJson?_toJson _ := rfl

theorem exact_word : Exact UInt32 0 where
  faithful n := .natural (Nat.lt_trans n.toNat_lt (by decide))
  ofJson?_toJson n := by
    have hsize : n.toNat < UInt32.size := n.toNat_lt
    simp [toJson, ofJson?, Json.word?, hsize]

theorem exact_of_keyword {name : α → String} {ofName? : String → Option α}
    (htoJson : ∀ value : α, toJson value = .string (name value))
    (hofJson? : ∀ s, ofJson? (.string s) = ofName? s)
    (hname : ∀ value, ofName? (name value) = some value) : Exact α 0 where
  faithful value := htoJson value ▸ .string (name value)
  ofJson?_toJson value := by rw [htoJson, hofJson?, hname]

theorem Exact.list (h : Exact α depth) : Exact (List α) (depth + 1) where
  faithful values := by
    apply Json.Faithful.array
    intro item hitem
    obtain ⟨value, -, rfl⟩ := List.mem_map.1 hitem
    exact h.faithful value
  ofJson?_toJson := Json.listOf?_array h.ofJson?_toJson

/-- A record is exact when the members that it is written as are some of its fields, in their
order, and give the record back. -/
theorem exact_of_fields {names : List String} {members : α → List (String × Json)}
    {build : Fields → Option α}
    (htoJson : ∀ value : α, toJson value = .object (members value))
    (hofJson? : ∀ json : Json, ofJson? json = (json.fields? .json names).bind build)
    (hnodup : names.Nodup)
    (hnames : ∀ value, ((members value).map (·.1)).Sublist names)
    (hfaithful : ∀ value, ∀ member ∈ members value, Json.Faithful depth member.2)
    (hbuild : ∀ value, build (members value) = some value) : Exact α (depth + 1) where
  faithful value := htoJson value ▸ .object (hfaithful value)
  ofJson?_toJson value := by
    rw [htoJson, hofJson?]
    exact Json.fields?_object_bind hnodup (hnames value) (hbuild value)

theorem exact_nameSet : Exact NameSet 1 where
  faithful set := by
    apply Json.Faithful.array
    intro item hitem
    obtain ⟨name, -, rfl⟩ := List.mem_map.1 hitem
    exact .string name
  ofJson?_toJson set := by
    have hstring : ∀ s, Json.string? (.string s) = some s := fun _ => rfl
    have hnames := Json.listOf?_array hstring set.names
    show NameSet.ofList <$> Json.listOf? Json.string? (.array (set.names.map .string)) = some set
    rw [hnames, Option.map_eq_map, Option.map_some, NameSet.ofList_names]

theorem Exact.nameMap (h : Exact α depth) : Exact (NameMap α) (depth + 1) where
  faithful map := by
    apply Json.Faithful.object
    intro member hmember
    obtain ⟨entry, -, rfl⟩ := List.mem_map.1 hmember
    exact h.faithful entry.2
  ofJson?_toJson map := by
    have hentries : Json.mapOf? ofJson? (toJson map) = some map.entries :=
      (Json.mapOf?_object id h.ofJson?_toJson map.entries).trans (congrArg some (List.map_id' _))
    show NameMap.ofList <$> Json.mapOf? ofJson? (toJson map) = some map
    rw [hentries, Option.map_eq_map, Option.map_some, NameMap.ofList_entries]

end Document
end StagedBuild
