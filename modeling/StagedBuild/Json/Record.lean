import StagedBuild.Json.Basic

/-!
# Records in JSON

A record is written as an object with a member for each field, or as an array of its fields in
their order. Members of an object may come in any order, and members with other names are passed
over. No field may be given twice.

## Main definitions

* `RecordSource`: where a record comes from.
* `Json.fields?`: the fields of a record that a value gives.
* `Fields.required`, `Fields.withDefault`, `Fields.optional`: reading one field.
* `Json.string?`, `Json.bool?`, `Json.listOf?`, `Json.mapOf?`, `Json.keyword?`: reading a value.

## Design notes

An array that is too short leaves its last fields out, which is the same as an object without those
members. What a record has besides its fields depends on where it comes from. A JSON text may give
any members with other names, but no items beyond the last field. A configuration file may give
items beyond the last field, at which nobody looks, but members with other names are looked at and
have to be readable.
-/

namespace StagedBuild

/-- Where a record comes from. -/
inductive RecordSource where
  | json
  | toml
deriving DecidableEq, Repr

/-- Some fields of a record, each with its value; no field stands twice. -/
abbrev Fields := List (String × Json)

namespace Json

def string? : Json → Option String
  | .string s => some s
  | _ => none

def bool? : Json → Option Bool
  | .bool b => some b
  | _ => none

/-- A number that fits a word of 32 bits. -/
def word? : Json → Option UInt32
  | .natural n => if n < UInt32.size then some (UInt32.ofNat n) else none
  | _ => none

/-- The items of an array, each read by `read`. -/
def listOf? {α : Type} (read : Json → Option α) : Json → Option (List α)
  | .array items => items.mapM read
  | _ => none

/-- The members of an object, each value read by `read`. -/
def mapOf? {α : Type} (read : Json → Option α) : Json → Option (List (String × α))
  | .object members => members.mapM fun member => (member.1, ·) <$> read member.2
  | _ => none

/-- A value that may be missing: `null` stands for a missing one. -/
def option? {α : Type} (read : Json → Option α) : Json → Option (Option α)
  | .null => some none
  | json => some <$> read json

/-- One word out of a list of words: a string, or an object whose only member has that name and the
value `null`. -/
def keyword? : Json → Option String
  | .string s => some s
  | .object [(s, .null)] => some s
  | _ => none

/-- The fields that a value gives of a record with the fields `names`. An object gives those of its
members that are named there; an array gives its items to the names in order. -/
def fields? (source : RecordSource) (names : List String) : Json → Option Fields
  | .object members =>
    let known : Fields := members.filter fun member => names.contains member.1
    let others : Fields := members.filter fun member => !names.contains member.1
    if (known.map (·.1)).Nodup ∧ (source = .json ∨ isReadableMembers others) then some known
    else none
  | .array items =>
    if source = .toml ∨ items.length ≤ names.length then some (names.zip items) else none
  | _ => none

end Json

namespace Fields

def required {α : Type} (fields : Fields) (name : String) (read : Json → Option α) : Option α :=
  (fields.lookup name).bind read

/-- A field that has the value `default` when it is not given. -/
def withDefault {α : Type} (fields : Fields) (name : String) (default : α)
    (read : Json → Option α) : Option α :=
  match fields.lookup name with
  | none => some default
  | some value => read value

/-- A field that may be missing or `null`. -/
def optional {α : Type} (fields : Fields) (name : String) (read : Json → Option α) :
    Option (Option α) :=
  fields.withDefault name none (Json.option? read)

end Fields
end StagedBuild
