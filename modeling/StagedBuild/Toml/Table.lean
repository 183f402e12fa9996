import StagedBuild.Json.Basic

/-!
# Tables of a configuration file

A table grows while a file is read. How it came to be decides how it may still grow: each table is
opened by a header once, keys with dots open tables of their own, and a table that is written as a
value is closed.

## Main definitions

* `TomlValue`: values and tables.
* `TomlTable.define`: a key with dots gets a value.
* `TomlTable.openTable`, `TomlTable.openRow`: a header opens a table, or a further row of one.
* `TomlValue.toJson`: the value for a reader of records.
-/

namespace StagedBuild

/-- How a table came to be. -/
inductive TableForm where
  /-- By a header of its own. -/
  | header
  | implied
  | dotted
  | inline
deriving DecidableEq, Repr

inductive TomlValue where
  | text (s : String)
  | flag (b : Bool)
  | number
  /-- A numeral that has no value. -/
  | unreadable
  | moment
  | list (items : List TomlValue)
  | table (form : TableForm) (members : List (String × TomlValue))
  /-- The rows of a table that headers repeat, last row first. -/
  | rows (tables : List (List (String × TomlValue)))

instance : Inhabited TomlValue := ⟨.number⟩

/-- The members of a table, in the order in which they were added. -/
abbrev TomlTable := List (String × TomlValue)

namespace TomlTable

/-- The table with another value for a key that it has. -/
def replace (table : TomlTable) (key : String) (value : TomlValue) : TomlTable :=
  table.map fun member => if member.1 = key then (key, value) else member

/-- Change the table that a path leads to. Missing tables on the way are made. A path leads through
the last row of a repeated table and through no closed table; a path of a key with dots leads through
no table that has a header. The change is told whether the table came to be by a key with dots. -/
def change (byDots : Bool) : List String → Bool → TomlTable →
    (Bool → TomlTable → Option TomlTable) → Option TomlTable
  | [], isDotted, table, step => step isDotted table
  | key :: path, _, table, step =>
    match table.lookup key with
    | none =>
      (change byDots path byDots [] step).map fun inner =>
        table ++ [(key, .table (if byDots then .dotted else .implied) inner)]
    | some (.table form inner) =>
      if form = .inline ∨ (byDots ∧ form = .header) then none
      else
        (change byDots path (form = .dotted) inner step).map fun inner =>
          table.replace key (.table form inner)
    | some (.rows (row :: rows)) =>
      (change byDots path false row step).map fun row => table.replace key (.rows (row :: rows))
    | some _ => none

/-- Give a value to a key with dots. The table that gets it came to be by a key with dots exactly if
the key has dots. -/
def define (table : TomlTable) (path : List String) (key : String) (value : TomlValue) :
    Option TomlTable :=
  change true path false table fun isDotted inner =>
    if isDotted = path.isEmpty ∨ (inner.lookup key).isSome then none
    else some (inner ++ [(key, value)])

/-- Open the table of a header. It may have been implied before, and that only. -/
def openTable (table : TomlTable) (path : List String) (key : String) : Option TomlTable :=
  change false path false table fun _ inner =>
    match inner.lookup key with
    | none => some (inner ++ [(key, .table .header [])])
    | some (.table .implied members) => some (replace inner key (.table .header members))
    | some _ => none

/-- Open a further row of a repeated table. -/
def openRow (table : TomlTable) (path : List String) (key : String) : Option TomlTable :=
  change false path false table fun _ inner =>
    match inner.lookup key with
    | none => some (inner ++ [(key, .rows [[]])])
    | some (.rows rows) => some (replace inner key (.rows ([] :: rows)))
    | some _ => none

/-- Give a value to a key below an open table. -/
def defineAt (table : TomlTable) (location path : List String) (key : String) (value : TomlValue) :
    Option TomlTable :=
  change false location false table fun _ inner => define inner path key value

end TomlTable

namespace TomlValue

mutual

/-- The value for a reader of records. A point in time reads as a record without known fields. -/
def toJson : TomlValue → Json
  | text s => .string s
  | flag b => .bool b
  | number => .otherNumber
  | unreadable => .unreadable
  | moment => .object [("moment", .string "")]
  | list items => .array (itemsToJson items)
  | table _ members => .object (membersToJson members)
  | rows tables => .array (rowsToJson tables [])

def itemsToJson : List TomlValue → List Json
  | [] => []
  | item :: rest => item.toJson :: itemsToJson rest

def membersToJson : List (String × TomlValue) → List (String × Json)
  | [] => []
  | (key, value) :: rest => (key, value.toJson) :: membersToJson rest

/-- The rows of a repeated table, first row first. -/
def rowsToJson : List (List (String × TomlValue)) → List Json → List Json
  | [], later => later
  | row :: rest, later => rowsToJson rest (.object (membersToJson row) :: later)

end

end TomlValue
end StagedBuild
