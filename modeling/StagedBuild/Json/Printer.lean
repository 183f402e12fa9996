import StagedBuild.Json.Basic

/-!
# Writing JSON

A value is written either without any white space, or over several lines with two spaces for each
level.

## Main definitions

* `Json.compact`: the text without white space.
* `Json.pretty`: the text over several lines.

## Design notes

Inside a string only the quotation mark, the backslash and the control characters below U+0020 are
escaped. Numbers other than natural ones and unreadable literals have no value to write and become
`null`; no document of this library holds one.
-/

namespace StagedBuild
namespace Json

def hexDigit (n : Nat) : Char :=
  if n < 10 then Char.ofNat ('0'.toNat + n) else Char.ofNat ('a'.toNat + (n - 10))

/-- How a character is written inside a string. -/
def escapeChar (c : Char) : List Char :=
  if c = '"' then ['\\', '"']
  else if c = '\\' then ['\\', '\\']
  else if c = '\n' then ['\\', 'n']
  else if c = '\r' then ['\\', 'r']
  else if c = '\t' then ['\\', 't']
  else if c = '\x08' then ['\\', 'b']
  else if c = '\x0c' then ['\\', 'f']
  else if c.toNat < 0x20 then
    ['\\', 'u', '0', '0', hexDigit (c.toNat / 16), hexDigit (c.toNat % 16)]
  else [c]

def quoted (s : String) : List Char :=
  '"' :: (s.toList.flatMap escapeChar ++ ['"'])

/-- A value that is no container. -/
def scalarChars : Json → List Char
  | .bool true => "true".toList
  | .bool false => "false".toList
  | .natural n => (Nat.toDigits 10 n)
  | .string s => quoted s
  | _ => "null".toList

mutual

/-- The characters of a value without white space. -/
def compactChars : Json → List Char
  | .array items => '[' :: (compactItems items ++ [']'])
  | .object members => '\x7b' :: (compactMembers members ++ ['\x7d'])
  | scalar => scalarChars scalar

/-- The items of an array, with commas between them. -/
def compactItems : List Json → List Char
  | [] => []
  | [item] => compactChars item
  | item :: rest => compactChars item ++ ',' :: compactItems rest

def compactMembers : List (String × Json) → List Char
  | [] => []
  | [(name, value)] => quoted name ++ ':' :: compactChars value
  | (name, value) :: rest => quoted name ++ ':' :: (compactChars value ++ ',' :: compactMembers rest)

end

/-- The start of a line at a level. -/
def newline (level : Nat) : List Char :=
  '\n' :: List.replicate (2 * level) ' '

mutual

/-- The characters of a value over several lines; `level` is the level of its first line. -/
def prettyChars (level : Nat) : Json → List Char
  | .array [] => ['[', ']']
  | .array items => '[' :: (prettyItems (level + 1) items ++ newline level ++ [']'])
  | .object [] => ['\x7b', '\x7d']
  | .object members => '\x7b' :: (prettyMembers (level + 1) members ++ newline level ++ ['\x7d'])
  | scalar => scalarChars scalar

/-- The items of an array, each on a line of its own. -/
def prettyItems (level : Nat) : List Json → List Char
  | [] => []
  | [item] => newline level ++ prettyChars level item
  | item :: rest => newline level ++ prettyChars level item ++ ',' :: prettyItems level rest

/-- The members of an object, each on a line of its own. -/
def prettyMembers (level : Nat) : List (String × Json) → List Char
  | [] => []
  | [(name, value)] => newline level ++ quoted name ++ ':' :: ' ' :: prettyChars level value
  | (name, value) :: rest =>
    newline level ++ quoted name ++ ':' :: ' ' :: (prettyChars level value ++
      ',' :: prettyMembers level rest)

end

def compact (j : Json) : String :=
  String.ofList (compactChars j)

/-- The text of a value over several lines, without a line feed at the end. -/
def pretty (j : Json) : String :=
  String.ofList (prettyChars 0 j)

end Json
end StagedBuild
