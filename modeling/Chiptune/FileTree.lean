import Chiptune.Bytes
import Chiptune.Error
import Chiptune.Text.Path
import Chiptune.Total

/-!
# File trees

The files that a program can see, each at a list of names below the root, and a working directory
from which relative paths start. Folders exist where something lies in them or where they are
listed.
-/

namespace Chiptune

open Text (Points CodePoint)

abbrev Place := List Points

structure FileTree where
  workingDirectory : Points
  files : List (Place × Bytes) := []
  folders : List Place := []
  deriving Repr

namespace FileTree

inductive Node
  | file (content : Bytes)
  | folder
  deriving DecidableEq, Repr

def workingPlace (tree : FileTree) : Place :=
  (Text.Path.parts tree.workingDirectory).filter (!·.isEmpty)

/-- Whether something lies at the place or below it. -/
def isFolder (tree : FileTree) (place : Place) : Bool :=
  place.isPrefixOf tree.workingPlace || tree.folders.any (place.isPrefixOf ·) ||
    tree.files.any fun file => place.isPrefixOf file.1 && place != file.1

def node? (tree : FileTree) (place : Place) : Option Node :=
  match tree.files.lookup place with
  | some content => some (.file content)
  | none => if tree.isFolder place then some .folder else none

/-- Bytes of the longest name. -/
def longestName : Nat := 255

/-- Bytes of the longest path. -/
def longestPath : Nat := 4095

/-- The name that stands for the folder itself. -/
def here : Points := [Text.Path.dot]

/-- The name that stands for the folder above. -/
def above : Points := [Text.Path.dot, Text.Path.dot]

/-- Follows names from a place on. Only a folder can be entered. -/
def follow (tree : FileTree) (path : Points) : Place → List Points → Outcome Place
  | place, [] => pure place
  | place, name :: rest => do
    match tree.node? place with
    | none => throw (.file (.notFound path))
    | some (.file _) => throw (.file (.notDirectory path))
    | some .folder =>
      if name = [] ∨ name = here then tree.follow path place rest
      else if name = above then tree.follow path place.dropLast rest
      else if total CodePoint.size name > longestName then throw (.file (.nameTooLong path))
      else tree.follow path (place ++ [name]) rest

/-- The place from which a path starts, and its names. -/
def start (tree : FileTree) (path : Points) : Place × List Points :=
  let working := tree.workingDirectory
  if path = working then (tree.workingPlace, [])
  else if (working ++ [Text.Path.slash]).isPrefixOf path then
    (tree.workingPlace, Text.Path.parts (path.drop (working.length + 1)))
  else if Text.Path.isAbsolute path then ([], Text.Path.parts path)
  else (tree.workingPlace, Text.Path.parts path)

def checkPath (path : Points) : Outcome Unit :=
  if !path.all CodePoint.isNamable then throw .notEncodable
  else if path.contains (.char '\x00') then throw .nulInPath
  else if path.isEmpty then throw (.file (.notFound path))
  else if total CodePoint.size path > longestPath then throw (.file (.nameTooLong path))
  else pure ()

/-- The place that a path leads to. There need not be anything. -/
def locate (tree : FileTree) (path : Points) : Outcome Place := do
  checkPath path
  let (place, names) := tree.start path
  tree.follow path place names

def read (tree : FileTree) (path : Points) : Outcome Bytes := do
  match tree.node? (← tree.locate path) with
  | some (.file content) => return content
  | some .folder => throw (.file (.isDirectory path))
  | none => throw (.file (.notFound path))

def isFile (tree : FileTree) (path : Points) : Bool := (tree.read path).isOk

/-- Stores a file in a folder that exists. A path with a slash at its end can only be a folder. -/
def write (tree : FileTree) (path : Points) (content : Bytes) : Outcome FileTree := do
  checkPath path
  let (place, names) := tree.start path
  let kept := (names.reverse.dropWhile (·.isEmpty)).reverse
  if kept.length < names.length then
    let _ ← tree.follow path place (kept.dropLast ++ [here])
    throw (.file (.isDirectory path))
  let place ← tree.follow path place names
  if tree.node? place = some .folder then throw (.file (.isDirectory path))
  return { tree with files := (place, content) :: tree.files.filter (·.1 != place) }

def writeText (tree : FileTree) (path : Points) (text : String) : Outcome FileTree :=
  tree.write path text.toUTF8.toList

end FileTree

end Chiptune
