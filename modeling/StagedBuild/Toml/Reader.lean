import StagedBuild.Toml.Quoted
import StagedBuild.Toml.Scalar
import StagedBuild.Toml.Table

/-!
# Reading configuration files

A file is a list of lines: a key with its value, the header of a table, or a comment. Lists and
tables that are written as values may go over several lines.

## Main definitions

* `TomlReader.value?`: a value and what follows it.
* `TomlReader.line?`: what a line does to the tables.
* `TomlTable.parse?`: the tables of a file.

## Design notes

Each reader is given a number of steps that it may take, and one more than the number of characters
is always enough: a list or table takes two steps, and its two brackets are two characters; every
other step uses up a character of its own. Lists and tables as values may enclose one another 80
deep, and a key has at most 80 parts.

Inside a table that is written as a value, line ends and comments may stand between all its members
and around each equals sign, but not around the dots of a key.
-/

namespace StagedBuild
namespace TomlReader

open QuoteScan (isSpace isTextChar)

/-- What follows spaces and tabs. -/
def skipSpaces (cs : List Char) : List Char :=
  cs.dropWhile isSpace

/-- What follows white space, line ends and comments; nothing if a comment holds a character that
may not stand there. -/
def skipGaps? : Bool → List Char → Option (List Char)
  | _, [] => some []
  | _, '\n' :: rest => skipGaps? false rest
  | _, '\r' :: '\n' :: rest => skipGaps? false rest
  | true, c :: rest => if isTextChar c then skipGaps? true rest else none
  | false, '#' :: rest => skipGaps? true rest
  | false, c :: rest => if isSpace c then skipGaps? false rest else some (c :: rest)

/-- What follows a comment up to the end of its line. -/
def skipComment? : List Char → Option (List Char)
  | [] => some []
  | '\n' :: rest => some ('\n' :: rest)
  | '\r' :: '\n' :: rest => some ('\r' :: '\n' :: rest)
  | c :: rest => if isTextChar c then skipComment? rest else none

/-- What follows the end of a line, before which a comment may stand. -/
def endLine? (cs : List Char) : Option (List Char) := do
  let cs ← match skipSpaces cs with
    | '#' :: rest => skipComment? rest
    | cs => some cs
  match cs with
  | [] => some []
  | '\n' :: rest => some rest
  | '\r' :: '\n' :: rest => some rest
  | _ => none

/-- Characters of keys without quotes. -/
def isKeyChar (c : Char) : Bool :=
  c.isAlphanum || c == '_' || c == '-'

/-- One part of a key: a word, or a text on one line. -/
def keyPart? (cs : List Char) : Option (String × List Char) :=
  match cs with
  | '"' :: '"' :: '"' :: _ => none
  | '\'' :: '\'' :: '\'' :: _ => none
  | '"' :: _ => readString? cs
  | '\'' :: _ => readString? cs
  | _ =>
    let word := cs.takeWhile isKeyChar
    if word.isEmpty then none else some (String.ofList word, cs.dropWhile isKeyChar)

/-- The parts of a key with dots between them, and what follows the key and its white space. -/
def key? : Nat → List Char → Option (List String × List Char)
  | 0, _ => none
  | steps + 1, cs => do
    let (part, cs) ← keyPart? (skipSpaces cs)
    match skipSpaces cs with
    | '.' :: cs =>
      let (parts, cs) ← key? steps cs
      return (part :: parts, cs)
    | cs => return ([part], cs)

/-- The number of parts that a key may have. -/
def partLimit : Nat := 80

/-- The parts of a key before the last one, and the last one. A key with too many parts is
refused. -/
def splitKey? (parts : List String) : Option (List String × String) :=
  if partLimit < parts.length then none else parts.getLast?.map (parts.dropLast, ·)

/-- Characters besides spaces and tabs at which a bare value ends. -/
def bareStops : List Char :=
  ['\n', '\r', '#', ',', '[', ']', '\x7b', '\x7d', '=']

/-- Characters of bare values. -/
def isBareChar (c : Char) : Bool :=
  !(isSpace c || bareStops.contains c)

/-- A bare value and what follows it. A time of day may follow a date after one space. -/
def bareValue? (cs : List Char) : Option (TomlValue × List Char) := do
  let word := cs.takeWhile isBareChar
  let rest := cs.dropWhile isBareChar
  let (word, rest) := match rest with
    | ' ' :: c :: later =>
      if CalendarDate.isDate word && c.isDigit then
        (word ++ ' ' :: (c :: later).takeWhile isBareChar, (c :: later).dropWhile isBareChar)
      else (word, rest)
    | _ => (word, rest)
  match ← BareValue.ofChars? word with
  | .flag b => return (.flag b, rest)
  | .number => return (.number, rest)
  | .unreadable => return (.unreadable, rest)
  | .moment => return (.moment, rest)

/-- How deep lists and tables as values may enclose one another. -/
def depthLimit : Nat := 80

mutual

/-- A value and what follows it; `depth` more lists and tables may enclose one another. -/
def value? (steps depth : Nat) (cs : List Char) : Option (TomlValue × List Char) :=
  match steps with
  | 0 => none
  | steps + 1 =>
    match cs with
    | '"' :: _ => (readString? cs).map fun (s, rest) => (.text s, rest)
    | '\'' :: _ => (readString? cs).map fun (s, rest) => (.text s, rest)
    | '[' :: rest =>
      if depth = 0 then none
      else (items? steps (depth - 1) rest).map fun (items, rest) => (.list items, rest)
    | '\x7b' :: rest =>
      if depth = 0 then none
      else (members? steps (depth - 1) [] rest).map fun (table, rest) => (.table .inline table, rest)
    | _ => bareValue? cs

/-- The items of a list up to its closing bracket; a comma may follow the last one. -/
def items? (steps depth : Nat) (cs : List Char) : Option (List TomlValue × List Char) :=
  match steps with
  | 0 => none
  | steps + 1 => do
    match ← skipGaps? false cs with
    | ']' :: rest => return ([], rest)
    | cs =>
      let (item, cs) ← value? steps depth cs
      match ← skipGaps? false cs with
      | ']' :: rest => return ([item], rest)
      | ',' :: rest =>
        let (items, rest) ← items? steps depth rest
        return (item :: items, rest)
      | _ => none

/-- The members of a table as a value, added to those before, up to its closing brace; a comma may
follow the last one. -/
def members? (steps depth : Nat) (table : TomlTable) (cs : List Char) :
    Option (TomlTable × List Char) :=
  match steps with
  | 0 => none
  | steps + 1 => do
    match ← skipGaps? false cs with
    | '\x7d' :: rest => return (table, rest)
    | cs =>
      let (parts, cs) ← key? steps cs
      let (path, key) ← splitKey? parts
      let '=' :: cs := ← skipGaps? false cs | none
      let (value, cs) ← value? steps depth (← skipGaps? false cs)
      let table ← table.define path key value
      match ← skipGaps? false cs with
      | '\x7d' :: rest => return (table, rest)
      | ',' :: rest => members? steps depth table rest
      | _ => none

end

/-- The tables of the lines read so far, and the table that is open. -/
structure Progress where
  tables : TomlTable
  /-- The way to the open table. -/
  location : List String

/-- Read a header up to the end of its line. -/
def header? (steps : Nat) (repeated : Bool) (progress : Progress) (cs : List Char) :
    Option (Progress × List Char) := do
  let (parts, cs) ← key? steps cs
  let (path, key) ← splitKey? parts
  let ']' :: cs := cs | none
  let cs ← if repeated then
      match cs with
      | ']' :: rest => some rest
      | _ => none
    else some cs
  let tables ← if repeated then progress.tables.openRow path key
    else progress.tables.openTable path key
  return (⟨tables, parts⟩, ← endLine? cs)

/-- Read a key with its value up to the end of the line. -/
def member? (steps : Nat) (progress : Progress) (cs : List Char) :
    Option (Progress × List Char) := do
  let (parts, cs) ← key? steps cs
  let (path, key) ← splitKey? parts
  let '=' :: cs := cs | none
  let (value, cs) ← value? steps depthLimit (skipSpaces cs)
  let tables ← progress.tables.defineAt progress.location path key value
  return ({ progress with tables }, ← endLine? cs)

/-- What a line does to the tables, and what follows it. -/
def line? (steps : Nat) (progress : Progress) : List Char → Option (Progress × List Char)
  | '[' :: '[' :: rest => header? steps true progress rest
  | '[' :: rest => header? steps false progress rest
  | cs => member? steps progress cs

/-- The tables of all lines. -/
def lines? : Nat → Progress → List Char → Option TomlTable
  | 0, _, _ => none
  | steps + 1, progress, cs => do
    match ← skipGaps? false cs with
    | [] => return progress.tables
    | cs =>
      let (progress, cs) ← line? (steps + 1) progress cs
      lines? steps progress cs

def dropMark : List Char → List Char
  | '\ufeff' :: rest => rest
  | cs => cs

end TomlReader

def TomlTable.parse? (text : String) : Option TomlTable :=
  let cs := TomlReader.dropMark text.toList
  TomlReader.lines? (cs.length + 1) ⟨[], []⟩ cs

end StagedBuild
