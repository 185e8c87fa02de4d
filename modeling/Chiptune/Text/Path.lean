import Chiptune.Text.CodePoint

/-!
# Paths

Names separated by slashes. Everything here is about the text of a path; no file is looked at.
-/

namespace Chiptune.Text.Path

def slash : CodePoint := .char '/'

def dot : CodePoint := .char '.'

/-- The names between the slashes, empty ones included. -/
def parts (path : Points) : List Points := path.splitOn slash

def isAbsolute (path : Points) : Bool := path.head? == some slash

/-- What follows the last slash. -/
def baseName (path : Points) : Points := (path.reverse.takeWhile (· != slash)).reverse

/-- What precedes the last slash, without the slashes at its end unless there is nothing else. -/
def directory (path : Points) : Points :=
  let head := path.reverse.dropWhile (· != slash)
  match head.dropWhile (· == slash) with
  | [] => head
  | trimmed => trimmed.reverse

def join (folder path : Points) : Points :=
  if isAbsolute path then path
  else if folder.isEmpty || folder.getLast? == some slash then folder ++ path
  else folder ++ slash :: path

/-- A name without what follows its last dot. Dots at its start do not count. -/
def stem (name : Points) : Points :=
  let dots := name.takeWhile (· == dot)
  match (name.drop dots.length).reverse.dropWhile (· != dot) with
  | [] => name
  | _ :: kept => dots ++ kept.reverse

/-- One step of walking along a path; `seen` holds the names kept so far in reverse. -/
def normalStep (absolute : Bool) (seen : List Points) (part : Points) : List Points :=
  if part = [] ∨ part = [dot] then seen
  else if part ≠ [dot, dot] then part :: seen
  else match seen with
    | [] => if absolute then [] else [part]
    | last :: rest => if last = [dot, dot] then part :: seen else rest

/-- The slashes with which a normal path starts. Two at the start of a path are kept, but not more
than two. -/
def root (path : Points) : Points :=
  match (path.takeWhile (· == slash)).length with
  | 0 => []
  | 2 => [slash, slash]
  | _ => [slash]

/-- `path` without empty names, `.` and every `..` that follows a name. -/
def normalise (path : Points) : Points :=
  let names := ((parts path).foldl (normalStep (isAbsolute path)) []).reverse
  let text := root path ++ List.intercalate [slash] names
  if text.isEmpty then [dot] else text

def absolute (workingDirectory path : Points) : Points :=
  normalise (if isAbsolute path then path else join workingDirectory path)

end Chiptune.Text.Path
