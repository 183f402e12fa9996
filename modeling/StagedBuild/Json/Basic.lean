/-!
# JSON values

What a JSON text spells. Objects keep the order of their members and repeated names, because
records and maps treat repetition differently.

## Main definitions

* `Json`: the values.
* `Json.isReadable`: nothing inside the value is unreadable.
* `Json.nestingLimit`: how many containers may enclose one another in a value that is kept.

## Design notes

Some literals follow the grammar and still have no value that can be kept: a string with a lone
surrogate, a number out of range, a container nested too deeply. They become `Json.unreadable`, and
so do such numbers of a configuration file. What does not look at the value accepts it; whatever
keeps the value refuses it.
-/

namespace StagedBuild

inductive Json where
  | null
  | bool (b : Bool)
  /-- A number literal without sign, point or exponent. -/
  | natural (n : Nat)
  /-- Any other number within range; its value is not kept. -/
  | otherNumber
  | string (s : String)
  | array (items : List Json)
  | object (members : List (String × Json))
  /-- A literal that follows the grammar but has no value. -/
  | unreadable

namespace Json

instance : Inhabited Json := ⟨.null⟩

/-- The number of containers that may enclose one another, counted from the outermost one. -/
def nestingLimit : Nat := 127

mutual

/-- Nothing inside the value is unreadable. -/
def isReadable : Json → Bool
  | .unreadable => false
  | .array items => isReadableList items
  | .object members => isReadableMembers members
  | _ => true

def isReadableList : List Json → Bool
  | [] => true
  | item :: rest => item.isReadable && isReadableList rest

def isReadableMembers : List (String × Json) → Bool
  | [] => true
  | (_, value) :: rest => value.isReadable && isReadableMembers rest

end

theorem isReadableList_eq_all (items : List Json) :
    isReadableList items = items.all isReadable := by
  induction items with
  | nil => rfl
  | cons item rest ih => rw [isReadableList, ih, List.all_cons]

theorem isReadableMembers_eq_all (members : List (String × Json)) :
    isReadableMembers members = members.all fun member => member.2.isReadable := by
  induction members with
  | nil => rfl
  | cons member rest ih => rw [isReadableMembers, ih, List.all_cons]

end Json
end StagedBuild
