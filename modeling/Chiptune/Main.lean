import Chiptune.CommandLine.Run

/-!
# The program

Looks at the files that a run can touch, runs, and carries out what the run has written.
-/

namespace Chiptune.Main

/-- The path of a place on the disk. -/
def diskPath (place : Place) : String := "/" ++ String.intercalate "/" (place.map (·.shown))

/-- The tree with what lies at a place on the disk. -/
def lookAt (tree : FileTree) (place : Place) : IO FileTree := do
  let path := (← IO.currentDir) / diskPath place
  if ← path.isDir then return { tree with folders := place :: tree.folders }
  if ← path.pathExists then
    try
      let content ← IO.FS.readBinFile path
      return { tree with files := (place, content.toList) :: tree.files }
    catch _ => return tree
  return tree

/-- The tree with what lies along a path. -/
def look (tree : FileTree) (path : Text.Points) : IO FileTree := do
  let (start, names) := tree.start path
  let mut tree ← lookAt tree start
  let mut place := start
  for name in names do
    if name = FileTree.above then place := place.dropLast
    else if name ≠ [] ∧ name ≠ FileTree.here then place := place ++ [name]
    tree ← lookAt tree place
  return tree

/-- The files that an instrument map names. -/
def mapPaths (map : InstrumentMap) : List Text.Points :=
  map.default.fti.toList ++ map.programs.filterMap (·.2.fti) ++ map.samples.map (·.2.file)

/-- The tree with all that a run with these settings can ask for. -/
def survey (tree : FileTree) (settings : CommandLine.Settings) : IO FileTree := do
  let direct := settings.input :: settings.output.toList ++ settings.instrumentMap.toList ++
    settings.sampleOutput.toList
  let tree ← direct.foldlM look tree
  let mapped := match settings.instrumentMap.map (InstrumentMap.load tree) with
    | some (.ok map) => mapPaths map
    | _ => []
  mapped.foldlM look tree

/-- Writes the files of a tree that were not in the tree before. The latest comes last. -/
def writeChanges (before after : FileTree) : IO Unit :=
  after.files.reverse.forM fun (place, content) => do
    if before.files.lookup place ≠ some content then
      IO.FS.writeBinFile (diskPath place) ⟨content.toArray⟩

def usage : String :=
  "usage: INPUT.mid OUTPUT " ++
    String.intercalate " " (CommandLine.Settings.specs.map fun spec =>
      if spec.takesValue then "[" ++ spec.name ++ " VALUE]" else "[" ++ spec.name ++ "]")

def runWith (words : List Text.Points) (settings : CommandLine.Settings) : IO UInt32 := do
  let tree ← survey { workingDirectory := (← IO.currentDir).toString } settings
  let report := CommandLine.run .accepting tree words
  writeChanges tree report.tree
  report.printed.forM fun line => IO.println line.shown
  match report.exit with
  | .ok code => return code.toUInt32
  | .error error =>
    IO.eprintln error.message.shown
    return 1

end Chiptune.Main

open Chiptune in
def main (words : List String) : IO UInt32 := do
  let words := words.map Text.points
  match CommandLine.Settings.ofWords words with
  | .run settings => Main.runWith words settings
  | .help => IO.println Main.usage; return 0
  | .refused => IO.eprintln Main.usage; return 2
