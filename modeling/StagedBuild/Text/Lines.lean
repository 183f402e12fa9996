/-!
# Lines and joined texts

A stream of lines is cut at line feeds. A carriage return just before a line feed belongs to the
line's end, and a last line needs no line feed.

## Main definitions

* `Text.lines`: the lines of a stream.
* `Text.firstLine`: a message up to its first line feed.
* `Text.unlines`: texts with a line feed after each.
* `Text.joinWith`: texts with a separator between neighbours.
* `Text.splitAt`: the parts of a text between the occurrences of a character.
-/

namespace StagedBuild
namespace Text

/-- The parts of `cs` between the occurrences of `sep`: one more part than occurrences. -/
def splitAtChars (sep : Char) : List Char → List (List Char)
  | [] => [[]]
  | c :: cs =>
    if c = sep then
      [] :: splitAtChars sep cs
    else
      match splitAtChars sep cs with
      | [] => [[c]]
      | part :: parts => (c :: part) :: parts

/-- The parts of a text between the occurrences of `sep`. -/
def splitAt (sep : Char) (s : String) : List String :=
  (splitAtChars sep s.toList).map String.ofList

/-- A line without the carriage return that ends it. -/
def dropReturn (line : List Char) : List Char :=
  if line.getLast? = some '\r' then line.dropLast else line

/-- Every part but the last is a line that a line feed ended; the last one is a line of its own
only if it holds something. -/
def closeLines : List (List Char) → List (List Char)
  | [] => []
  | [last] => if last.isEmpty then [] else [last]
  | line :: rest => dropReturn line :: closeLines rest

/-- The lines of a stream of characters, without their ends. -/
def lines (s : String) : List String :=
  (closeLines (splitAtChars '\n' s.toList)).map String.ofList

/-- A message up to its first line feed. -/
def firstLine (s : String) : String :=
  String.ofList (s.toList.takeWhile (· != '\n'))

/-- The texts in order, with a line feed after each. -/
def unlines (texts : List String) : String :=
  String.join (texts.map (· ++ "\n"))

/-- The texts in order, with `sep` between neighbours. -/
def joinWith (sep : String) : List String → String
  | [] => ""
  | [s] => s
  | s :: rest => s ++ sep ++ joinWith sep rest

end Text
end StagedBuild
