import Mathlib.Logic.Relation
import StagedBuild.Proofs.Json.Syntax
import StagedBuild.Proofs.Traversal
import StagedBuild.Stage.Options

/-!
# Rearranging a JSON text

What may be changed in a text without a change to what a reader finds there. A shape tells what the
reader looks for at each place. The members of an object may change places, unless the object is a
map with repeated names, and a record may be given members with names that it does not know. The
same changes are described twice, for what is written and for its value, and the value of a changed
text is the changed value.

## Main definitions

* `JsonShape`: what a reader looks for.
* `JsonSyntax.Step`, `JsonSyntax.Rearranged`: one change of what is written, and a series of them.
* `Json.Step`: the same change of a value.

## Main results

* `JsonSyntax.value_step`: a change of what is written changes the value in the same way, if at all.
* `Json.Step.isReadable_eq`: no change makes a value unreadable or readable.
-/

namespace StagedBuild

/-- What a reader looks for at a place. -/
inductive JsonShape where
  /-- A word, a flag or a number, or anything at all. -/
  | plain
  | list (item : JsonShape)
  /-- An object whose names are free. -/
  | map (value : JsonShape)
  /-- The fields of a record, in their order. -/
  | record (fields : List (String × JsonShape))
  /-- A record that tells by its tag which fields it has. -/
  | tagged (variants : List (String × List (String × JsonShape)))

namespace JsonShape

/-- The fields of a record with the given tag. -/
def fields (tag? : Option String) : JsonShape → List (String × JsonShape)
  | record fields => fields
  | tagged variants => (tag?.bind fun tag => variants.lookup tag).getD []
  | _ => []

def ofField (fields : List (String × JsonShape)) (name : String) : JsonShape :=
  (fields.lookup name).getD plain

def ofPlace (fields : List (String × JsonShape)) (index : Nat) : JsonShape :=
  (fields[index]?.map (·.2)).getD plain

/-- The shape of a member's value. -/
def ofMember (tag? : Option String) (name : Option String) : JsonShape → JsonShape
  | map value => value
  | shape => (name.map (ofField (shape.fields tag?))).getD plain

/-- The shape of an item. The tag of a record that is written as an array is the first item. -/
def ofItem (tag? : Option String) (index : Nat) : JsonShape → JsonShape
  | list item => item
  | record fields => ofPlace fields index
  | tagged variants =>
    match index with
    | 0 => plain
    | index + 1 => ofPlace ((tagged variants).fields tag?) index
  | _ => plain

/-- A record does not know the name. -/
def PassesOver (tag? : Option String) (name : String) : JsonShape → Prop
  | record fields => name ∉ fields.map (·.1)
  | tagged variants => name ≠ "type" ∧ name ∉ ((tagged variants).fields tag?).map (·.1)
  | _ => False

/-- Of two members with one name the later counts. -/
def PrefersLater : JsonShape → Prop
  | map _ => True
  | _ => False

end JsonShape

-- ════════════════════════════════════════════════════════════════════════
-- Changes of what is written
-- ════════════════════════════════════════════════════════════════════════

namespace JsonSyntax

def text? : JsonSyntax → Option String
  | .string s => s
  | _ => none

/-- The tag that is written: the only member `type`, or the first item. -/
def tag? : JsonSyntax → Option String
  | .object members =>
    match members.filter fun member => member.1 = some "type" with
    | [(_, tag)] => tag.text?
    | _ => none
  | .array (tag :: _) => tag.text?
  | _ => none

/-- A literal that has a value. -/
def isScalar : JsonSyntax → Bool
  | .null | .bool _ => true
  | .number n => n.inRange
  | .string s => s.isSome
  | .array _ | .object _ => false

/-- One change at one place. -/
inductive Step : JsonShape → JsonSyntax → JsonSyntax → Prop
  /-- The members of an object change places. -/
  | reorder {shape : JsonShape} {members others : List (Option String × JsonSyntax)}
    (hperm : members.Perm others)
    (hdistinct : shape.PrefersLater → (members.filterMap (·.1)).Nodup) :
    Step shape (.object members) (.object others)
  /-- A record gets a member that it does not know. -/
  | add {shape : JsonShape} {before after : List (Option String × JsonSyntax)} {name : String}
    {value : JsonSyntax} (hname : shape.PassesOver (object (before ++ after)).tag? name)
    (hvalue : value.isScalar = true) :
    Step shape (.object (before ++ after)) (.object (before ++ (some name, value) :: after))
  | member {shape : JsonShape} {before after : List (Option String × JsonSyntax)}
    {name : Option String} {old new : JsonSyntax}
    (h : Step (shape.ofMember (object (before ++ (name, old) :: after)).tag? name) old new) :
    Step shape (.object (before ++ (name, old) :: after)) (.object (before ++ (name, new) :: after))
  | item {shape : JsonShape} {before after : List JsonSyntax} {old new : JsonSyntax}
    (h : Step (shape.ofItem (array (before ++ old :: after)).tag? before.length) old new) :
    Step shape (.array (before ++ old :: after)) (.array (before ++ new :: after))

/-- Any number of changes at any places. -/
def Rearranged (shape : JsonShape) : JsonSyntax → JsonSyntax → Prop :=
  Relation.ReflTransGen (Step shape)

end JsonSyntax

-- ════════════════════════════════════════════════════════════════════════
-- Changes of values
-- ════════════════════════════════════════════════════════════════════════

namespace Json

/-- The tag that a value gives. -/
def tag? (json : Json) : Option String :=
  (StageOptions.splitTag? json).map (·.1)

theorem tag?_object (members : List (String × Json)) : (object members).tag? =
    match members.filter fun member => member.1 = "type" with
    | [(_, tag)] => tag.string?
    | _ => none := by
  rw [tag?, StageOptions.splitTag?]
  split
  · next heq => rw [heq]; rfl
  · next hnone =>
    split
    · next name tag heq =>
      cases tag with
      | string tag => exact absurd heq (hnone name tag)
      | _ => rfl
    · rfl

theorem tag?_array (items : List Json) :
    (array items).tag? = items.head?.bind string? := by
  cases items with
  | nil => rfl
  | cons first rest => cases first <;> rfl

/-- One change of a value at one place. -/
inductive Step : JsonShape → Json → Json → Prop
  | reorder {shape : JsonShape} {members others : List (String × Json)}
    (hperm : members.Perm others) (hdistinct : shape.PrefersLater → (members.map (·.1)).Nodup) :
    Step shape (.object members) (.object others)
  | add {shape : JsonShape} {before after : List (String × Json)} {name : String} {value : Json}
    (hname : shape.PassesOver (object (before ++ after)).tag? name)
    (hvalue : value.isReadable = true) :
    Step shape (.object (before ++ after)) (.object (before ++ (name, value) :: after))
  | member {shape : JsonShape} {before after : List (String × Json)} {name : String}
    {old new : Json}
    (h : Step (shape.ofMember (object (before ++ (name, old) :: after)).tag? (some name)) old new) :
    Step shape (.object (before ++ (name, old) :: after)) (.object (before ++ (name, new) :: after))
  | item {shape : JsonShape} {before after : List Json} {old new : Json}
    (h : Step (shape.ofItem (array (before ++ old :: after)).tag? before.length) old new) :
    Step shape (.array (before ++ old :: after)) (.array (before ++ new :: after))

/-- The value stays or changes in one place. -/
def Steps (shape : JsonShape) (old new : Json) : Prop :=
  old = new ∨ Step shape old new

theorem Step.isReadable_eq {shape : JsonShape} {old new : Json} (h : Step shape old new) :
    old.isReadable = new.isReadable := by
  induction h with
  | reorder hperm =>
    rw [isReadable, isReadable, isReadableMembers_eq_all, isReadableMembers_eq_all, hperm.all_eq]
  | add _ hvalue =>
    simp only [isReadable, isReadableMembers_eq_all, List.all_append, List.all_cons, hvalue,
      Bool.true_and]
  | member _ ih =>
    simp only [isReadable, isReadableMembers_eq_all, List.all_append, List.all_cons, ih]
  | item _ ih =>
    simp only [isReadable, isReadableList_eq_all, List.all_append, List.all_cons, ih]

end Json

-- ════════════════════════════════════════════════════════════════════════
-- The value of what is written
-- ════════════════════════════════════════════════════════════════════════

namespace JsonSyntax

variable {depth : Nat} {shape : JsonShape}

theorem string?_value (tree : JsonSyntax) (depth : Nat) :
    (tree.value depth).string? = tree.text? := by
  cases tree with
  | number n =>
    rw [value]
    split
    · cases n.natural? <;> rfl
    · rfl
  | string s => cases s <;> rfl
  | array items =>
    rw [value, JsonReader.sealed]
    split <;> rfl
  | object members =>
    rw [value]
    cases memberValues? (depth + 1) members with
    | none => rfl
    | some values =>
      rw [objectValue, JsonReader.sealed]
      split <;> rfl
  | _ => rfl

theorem isReadable_value {tree : JsonSyntax} (h : tree.isScalar = true) (depth : Nat) :
    (tree.value depth).isReadable = true := by
  cases tree with
  | number n =>
    have hrange : n.inRange = true := h
    rw [value, if_pos hrange]
    cases n.natural? <;> rfl
  | string s =>
    cases s with
    | none => cases h
    | some s => rfl
  | array items => cases h
  | object members => cases h
  | _ => rfl

theorem value_object (members : List (Option String × JsonSyntax)) (depth : Nat) :
    (object members).value depth =
      objectValue depth (members.mapM (memberValue? (depth + 1))) := by
  rw [value, memberValues?_eq_mapM]

theorem value_array (items : List JsonSyntax) (depth : Nat) : (array items).value depth =
    JsonReader.sealed depth (.array (items.map (value (depth + 1)))) := by
  rw [value, itemValues_eq_map]

theorem sealed_steps {old new : Json} (h : Json.Steps shape old new) :
    Json.Steps shape (JsonReader.sealed depth old) (JsonReader.sealed depth new) := by
  rw [JsonReader.sealed, JsonReader.sealed]
  split
  · exact h
  · exact .inl rfl

theorem objectValue_steps {old new : Option (List (String × Json))}
    (h : Option.Rel (fun a b => Json.Steps shape (.object a) (.object b)) old new) :
    Json.Steps shape (objectValue depth old) (objectValue depth new) := by
  cases h with
  | none => exact .inl rfl
  | some h => exact sealed_steps h

theorem tag?_array_values (items : List JsonSyntax) (depth : Nat) :
    (Json.array (items.map (value depth))).tag? = (array items).tag? := by
  rw [Json.tag?_array]
  cases items with
  | nil => rfl
  | cons first rest => exact string?_value first depth

section Members

variable {members before after : List (Option String × JsonSyntax)}
  {values : List (String × Json)}

theorem values_cons {name : Option String} {tree : JsonSyntax}
    (h : ((name, tree) :: members).mapM (memberValue? depth) = some values) :
    ∃ text others, name = some text ∧ members.mapM (memberValue? depth) = some others ∧
      values = (text, tree.value depth) :: others := by
  rw [List.mapM_cons] at h
  obtain ⟨value, hvalue, h⟩ := Option.bind_eq_some_iff.1 h
  obtain ⟨others, hothers, h⟩ := Option.bind_eq_some_iff.1 h
  obtain ⟨text, rfl, rfl⟩ := Option.map_eq_some_iff.1 hvalue
  exact ⟨text, others, rfl, hothers, (Option.some.inj h).symm⟩

theorem names_of_values (h : members.mapM (memberValue? depth) = some values) :
    values.map (·.1) = members.filterMap (·.1) := by
  induction members generalizing values with
  | nil =>
    obtain rfl := Option.some.inj h
    rfl
  | cons member rest ih =>
    obtain ⟨text, others, htext, hothers, rfl⟩ := values_cons h
    rw [List.map_cons, List.filterMap_cons, htext, ih hothers]

theorem filter_values (h : members.mapM (memberValue? depth) = some values) (wanted : String) :
    (members.filter fun member => member.1 = some wanted).mapM (memberValue? depth) =
      some (values.filter fun member => member.1 = wanted) := by
  induction members generalizing values with
  | nil =>
    obtain rfl := Option.some.inj h
    rfl
  | cons member rest ih =>
    obtain ⟨name, tree⟩ := member
    obtain ⟨text, others, rfl, hothers, rfl⟩ := values_cons h
    by_cases hname : text = wanted
    · simp [hname, ih hothers, memberValue?]
    · simp [hname, ih hothers]

/-- The tag that is written is the tag of the value. -/
theorem tag?_object_values (h : members.mapM (memberValue? depth) = some values) :
    (Json.object values).tag? = (object members).tag? := by
  have htags := filter_values h "type"
  rw [Json.tag?_object, tag?]
  generalize (values.filter fun member => member.1 = "type") = tags at htags
  generalize (members.filter fun member => member.1 = some "type") = written at htags
  cases written with
  | nil =>
    obtain rfl := Option.some.inj htags
    rfl
  | cons first rest =>
    obtain ⟨text, others, -, hothers, rfl⟩ := values_cons htags
    cases rest with
    | nil =>
      obtain rfl := Option.some.inj hothers
      exact string?_value first.2 depth
    | cons second rest =>
      obtain ⟨_, _, -, -, rfl⟩ := values_cons hothers
      rfl

theorem values_append (before after : List (Option String × JsonSyntax)) (depth : Nat) :
    (before ++ after).mapM (memberValue? depth) = (before.mapM (memberValue? depth)).bind fun x =>
      (after.mapM (memberValue? depth)).map fun y => x ++ y := by
  rw [List.mapM_append]
  cases before.mapM (memberValue? depth) <;> cases after.mapM (memberValue? depth) <;> rfl

theorem values_middle (before after : List (Option String × JsonSyntax)) (name : Option String)
    (tree : JsonSyntax) (depth : Nat) :
    (before ++ (name, tree) :: after).mapM (memberValue? depth) =
      (before.mapM (memberValue? depth)).bind fun x => name.bind fun text =>
        (after.mapM (memberValue? depth)).map fun y => x ++ (text, tree.value depth) :: y := by
  rw [values_append, List.mapM_cons]
  cases name <;> cases after.mapM (memberValue? depth) <;> rfl

end Members

section Changes

variable {before after members others : List (Option String × JsonSyntax)}

theorem value_reorder (hperm : members.Perm others)
    (hdistinct : shape.PrefersLater → (members.filterMap (·.1)).Nodup) (depth : Nat) :
    Json.Steps shape ((object members).value depth) ((object others).value depth) := by
  have hrel : Option.Rel List.Perm (members.mapM (memberValue? (depth + 1))) _ :=
    Traversal.mapM_perm hperm
  rw [value_object, value_object]
  apply objectValue_steps
  generalize others.mapM (memberValue? (depth + 1)) = values' at hrel
  cases hvalues : members.mapM (memberValue? (depth + 1)) with
  | none =>
    rw [hvalues] at hrel
    cases hrel
    exact .none
  | some values =>
    rw [hvalues] at hrel
    obtain hvaluesPerm | - := hrel
    refine .some (.inr (.reorder hvaluesPerm ?_))
    rw [names_of_values hvalues]
    exact hdistinct

theorem value_add {name : String} {value : JsonSyntax}
    (hname : shape.PassesOver (object (before ++ after)).tag? name)
    (hvalue : value.isScalar = true) (depth : Nat) :
    Json.Steps shape ((object (before ++ after)).value depth)
      ((object (before ++ (some name, value) :: after)).value depth) := by
  rw [value_object, value_object, values_append, values_middle]
  apply objectValue_steps
  cases hx : before.mapM (memberValue? (depth + 1)) with
  | none => exact .none
  | some x =>
    cases hy : after.mapM (memberValue? (depth + 1)) with
    | none => exact .none
    | some y =>
      have hvalues : (before ++ after).mapM (memberValue? (depth + 1)) = some (x ++ y) := by
        rw [values_append, hx, hy]
        rfl
      refine .some (.inr (.add ?_ (isReadable_value hvalue (depth + 1))))
      rw [tag?_object_values hvalues]
      exact hname

theorem value_member {name : Option String} {old new : JsonSyntax} {depth : Nat}
    (h : Json.Steps (shape.ofMember (object (before ++ (name, old) :: after)).tag? name)
      (old.value (depth + 1)) (new.value (depth + 1))) :
    Json.Steps shape ((object (before ++ (name, old) :: after)).value depth)
      ((object (before ++ (name, new) :: after)).value depth) := by
  rw [value_object, value_object, values_middle, values_middle]
  apply objectValue_steps
  cases hx : before.mapM (memberValue? (depth + 1)) with
  | none => exact .none
  | some x =>
    cases name with
    | none => exact .none
    | some name =>
      cases hy : after.mapM (memberValue? (depth + 1)) with
      | none => exact .none
      | some y =>
        have hvalues : (before ++ (some name, old) :: after).mapM (memberValue? (depth + 1)) =
            some (x ++ (name, old.value (depth + 1)) :: y) := by
          rw [values_middle, hx, hy]
          rfl
        rw [← tag?_object_values hvalues] at h
        refine .some ?_
        obtain heq | hstep := h
        · rw [heq]
          exact .inl rfl
        · exact .inr (.member hstep)

theorem value_item {front back : List JsonSyntax} {old new : JsonSyntax} {depth : Nat}
    (h : Json.Steps (shape.ofItem (array (front ++ old :: back)).tag? front.length)
      (old.value (depth + 1)) (new.value (depth + 1))) :
    Json.Steps shape ((array (front ++ old :: back)).value depth)
      ((array (front ++ new :: back)).value depth) := by
  have hlength : front.length = (front.map (value (depth + 1))).length := (List.length_map _).symm
  rw [← tag?_array_values _ (depth + 1), hlength] at h
  rw [value_array, value_array]
  apply sealed_steps
  simp only [List.map_append, List.map_cons] at h ⊢
  obtain heq | hstep := h
  · rw [heq]
    exact .inl rfl
  · exact .inr (.item hstep)

end Changes

/-- A change of what is written changes the value at the same place. It does not change the value at
all where nothing can be kept, as in an object that is nested too deeply. -/
theorem value_step {old new : JsonSyntax} (h : Step shape old new) (depth : Nat) :
    Json.Steps shape (old.value depth) (new.value depth) := by
  induction h generalizing depth with
  | reorder hperm hdistinct => exact value_reorder hperm hdistinct depth
  | add hname hvalue => exact value_add hname hvalue depth
  | member _ ih => exact value_member (ih (depth + 1))
  | item _ ih => exact value_item (ih (depth + 1))

end JsonSyntax
end StagedBuild
