import StagedBuild.Text.Lines

/-!
# Paths as text

A path is a text with `/` between its parts. Nothing is normalized: joining keeps both texts as they
are, and `.` and `..` are parts like any other.

## Main definitions

* `Path.join`: a path below another one.
* `Path.absolutize`: a path that no longer depends on the directory it was written for.
* `Path.parts`: the texts between the slashes.
* `Path.names`: the parts that lead somewhere.
* `Path.trimSlashes`: the path without the slashes at its end.
* `Path.parent`: the directory that holds what a path leads to.
-/

namespace StagedBuild
namespace Path

/-- A path that begins with a slash does not depend on where one stands. -/
def isAbsolute (path : String) : Bool :=
  path.toList.head? == some '/'

def endsInSlash (path : String) : Bool :=
  path.toList.getLast? == some '/'

/-- The path `below` as seen from `base`: an absolute path stays as it is, and any other follows
`base` after a slash, which is written unless `base` is empty or already ends in one. -/
def join (base below : String) : String :=
  if isAbsolute below then below
  else if base = "" || endsInSlash base then base ++ below
  else base ++ "/" ++ below

/-- The path `path` as seen from `root`: an absolute path stays as it is. A slash at the end is put
back if joining has lost it. -/
def absolutize (root path : String) : String :=
  if isAbsolute path then path
  else
    let joined := join root path
    if endsInSlash path && !endsInSlash joined then joined ++ "/" else joined

/-- The texts between the slashes of a path, empty ones included. -/
def parts (path : String) : List String :=
  Text.splitAt '/' path

/-- The parts of a path that are neither empty nor `.`. -/
def names (path : String) : List String :=
  (parts path).filter fun part => part ≠ "" && part ≠ "."

/-- Characters without the slashes at the end. -/
def trimSlashesChars (cs : List Char) : List Char :=
  (cs.reverse.dropWhile (· == '/')).reverse

/-- A path without the slashes at its end. -/
def trimSlashes (path : String) : String :=
  String.ofList (trimSlashesChars path.toList)

/-- The directory that holds what a path leads to: the path without its last part, and without
empty parts and `.` before that. -/
def parent (path : String) : String :=
  let above := ((parts path).dropLast.reverse.dropWhile fun part => part = "" || part = ".").reverse
  if above.isEmpty && isAbsolute path then "/" else Text.joinWith "/" above

end Path
end StagedBuild
