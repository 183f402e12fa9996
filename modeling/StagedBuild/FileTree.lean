import StagedBuild.Path

/-!
# File trees

A tree of directories and files without links, and the place in it where one stands. A path is
walked part by part, and what stands before each further part has to be a directory.

## Main definitions

* `FileTree`: what stands at each location.
* `FileTree.locate`: the location that a path leads to.
* `FileTree.read`, `FileTree.isFile`, `FileTree.canonical?`: looking at a tree.
* `FileTree.write`, `FileTree.ensureDirectory`: changing it.

## Design notes

A location is a list of names from the root on. Names hold up to 255 bytes, paths up to 4095, and
neither holds the character U+0000.
-/

namespace StagedBuild

inductive FileNode where
  | directory
  | file (content : String)
  /-- A file whose content is no text, or may not be read. -/
  | unreadable
deriving DecidableEq, Repr

/-- Directories and files by location. -/
structure FileTree where
  nodes : List (List String × FileNode)
  /-- The location where relative paths start. -/
  here : List String
deriving DecidableEq, Repr

inductive FileFailure where
  | missing
  | notDirectory
  | isDirectory
  | alreadyExists
  | unreadable
  | unusablePath
deriving DecidableEq, Repr

def FileFailure.message : FileFailure → String
  | missing => "no such file or directory"
  | notDirectory => "not a directory"
  | isDirectory => "is a directory"
  | alreadyExists => "file exists"
  | unreadable => "content cannot be read as text"
  | unusablePath => "path cannot be used"

/-- The leading parts of a list, from its first item alone to the whole list. -/
def leadingParts : List String → List (List String)
  | [] => []
  | name :: rest => [name] :: (leadingParts rest).map (name :: ·)

namespace FileTree

/-- What stands at a location. The root is always a directory. -/
def node? (tree : FileTree) (location : List String) : Option FileNode :=
  if location = [] then some .directory else tree.nodes.lookup location

/-- The tree in which `node` stands at a location. -/
def set (tree : FileTree) (location : List String) (node : FileNode) : FileTree :=
  { tree with nodes := (location, node) :: tree.nodes.filter (·.1 ≠ location) }

/-- A tree of nothing but the directories on the way to `here`. -/
def standingAt (here : List String) : FileTree where
  nodes := (leadingParts here).map (·, .directory)
  here

/-- The number of bytes that a name may have. -/
def nameLimit : Nat := 255

/-- The number of bytes that a path may have. -/
def pathLimit : Nat := 4095

/-- A path that may be walked at all. -/
def isUsable (path : String) : Bool :=
  path.utf8ByteSize ≤ pathLimit && !path.toList.contains '\x00'

/-- The location that further parts lead to. -/
def walk (tree : FileTree) (location : List String) : List String → Except FileFailure (List String)
  | [] => .ok location
  | part :: rest =>
    match tree.node? location with
    | none => .error .missing
    | some (.file _) | some .unreadable => .error .notDirectory
    | some .directory =>
      if part = "" ∨ part = "." then tree.walk location rest
      else if part = ".." then tree.walk location.dropLast rest
      else if part.utf8ByteSize ≤ nameLimit then tree.walk (location ++ [part]) rest
      else .error .unusablePath

/-- The location that a path leads to. Nothing need stand there, but on the way to it there are
directories only. -/
def locate (tree : FileTree) (path : String) : Except FileFailure (List String) :=
  if path = "" then .error .missing
  else if isUsable path then
    tree.walk (if Path.isAbsolute path then [] else tree.here) (Path.parts path)
  else .error .unusablePath

/-- What a path leads to. -/
def at? (tree : FileTree) (path : String) : Option FileNode :=
  match tree.locate path with
  | .ok location => tree.node? location
  | .error _ => none

def isFile (tree : FileTree) (path : String) : Bool :=
  match tree.at? path with
  | some (.file _) | some .unreadable => true
  | _ => false

def isDirectory (tree : FileTree) (path : String) : Bool :=
  tree.at? path == some .directory

def read (tree : FileTree) (path : String) : Except FileFailure String := do
  let location ← tree.locate path
  match tree.node? location with
  | some (.file content) => .ok content
  | some .unreadable => .error .unreadable
  | some .directory => .error .isDirectory
  | none => .error .missing

/-- The path from the root to what stands at a location. -/
def pathOf (location : List String) : String :=
  "/" ++ Text.joinWith "/" location

/-- The path from the root to what a path leads to. -/
def canonical? (tree : FileTree) (path : String) : Option String :=
  match tree.locate path with
  | .ok location => (tree.node? location).map fun _ => pathOf location
  | .error _ => none

/-- The tree with a file of the given content where the path leads. A file that stands there is
replaced. -/
def write (tree : FileTree) (path content : String) : Except FileFailure FileTree := do
  let location ← tree.locate path
  if tree.node? location = some .directory then .error .isDirectory
  else return tree.set location (.file content)

/-- The tree with a new directory where the path leads; slashes at its end do not matter. -/
def makeDirectory (tree : FileTree) (path : String) : Except FileFailure FileTree := do
  let trimmed := Path.trimSlashes path
  let location ← tree.locate (if trimmed = "" then path else trimmed)
  match tree.node? location with
  | some _ => .error .alreadyExists
  | none => return tree.set location .directory

/-- Make a directory unless there is one. -/
def makeMissing (tree : FileTree) (path : String) : Except FileFailure FileTree :=
  match tree.makeDirectory path with
  | .error .alreadyExists => if tree.isDirectory path then .ok tree else .error .alreadyExists
  | result => result

/-- Make missing directories one after the other; the first failure leaves those made before. -/
def makeAll (tree : FileTree) : List String → FileTree × Except FileFailure Unit
  | [] => (tree, .ok ())
  | path :: rest =>
    match tree.makeMissing path with
    | .ok tree => tree.makeAll rest
    | .error failure => (tree, .error failure)

/-- The paths of the directories above the last name of a path, outermost first. -/
def ancestors (path : String) : List String :=
  let start := if Path.isAbsolute path then "/" else ""
  (leadingParts (Path.names path).dropLast).map fun names => start ++ Text.joinWith "/" names

/-- Make a directory with all the directories above it, as far as they are missing. The directory
that one stands in needs no making. -/
def ensureDirectory (tree : FileTree) (path : String) : FileTree × Except FileFailure Unit :=
  if path = "" then (tree, .ok ())
  else if isUsable path then tree.makeAll (ancestors path ++ [path])
  else (tree, .error .unusablePath)

/-- The texts in the files of a tree with their paths as seen from `here`. -/
def filesHere (tree : FileTree) : List (String × String) :=
  tree.nodes.filterMap fun
    | (location, .file content) =>
      (tree.here.isPrefixOf? location).map fun rest => (Text.joinWith "/" rest, content)
    | (_, .directory) | (_, .unreadable) => none

end FileTree
end StagedBuild
