import StagedBuild.Json.Printer
import StagedBuild.Json.Reader
import StagedBuild.Json.Record
import StagedBuild.NameMap
import StagedBuild.NameSet

/-!
# Documents

A type whose values are exchanged as JSON has a written form and a reader for it.

## Main definitions

* `Document`: the class of these types.
* `Document.text`, `Document.pretty`: the two texts of a value.
* `Document.ofText?`: the value of a text.
-/

namespace StagedBuild

/-- A type whose values are exchanged as JSON. -/
class Document (α : Type) where
  toJson : α → Json
  /-- The value of a JSON value, if it has the form that the type asks for. -/
  ofJson? : Json → Option α

namespace Document

variable {α : Type} [Document α]

def text (value : α) : String :=
  (toJson value).compact

def pretty (value : α) : String :=
  (toJson value).pretty

def ofText? (text : String) : Option α :=
  (Json.parse? text).bind ofJson?

instance : Document String where
  toJson := .string
  ofJson? := Json.string?

instance : Document Bool where
  toJson := .bool
  ofJson? := Json.bool?

instance : Document UInt32 where
  toJson n := .natural n.toNat
  ofJson? := Json.word?

instance : Document (List α) where
  toJson values := .array (values.map toJson)
  ofJson? := Json.listOf? ofJson?

/-- A set is written as the array of its members, and read from an array in any order. -/
instance : Document NameSet where
  toJson set := .array (set.names.map .string)
  ofJson? json := NameSet.ofList <$> Json.listOf? Json.string? json

/-- A map is written as an object; of two members with one name the later counts. -/
instance : Document (NameMap α) where
  toJson map := .object (map.entries.map fun entry => (entry.1, toJson entry.2))
  ofJson? json := NameMap.ofList <$> Json.mapOf? ofJson? json

end Document
end StagedBuild
