import Chiptune.Export.Document
import Chiptune.FileTree

/-!
# Saved music data

The text of a document goes to one file and the samples, if there are any, to another one beside
it.
-/

namespace Chiptune.Export

/-- The file for the samples of a project whose text is at `path`. -/
def samplePath (tree : FileTree) (project : Project) (path : Text.Points) : Text.Points :=
  Text.Path.join (Text.Path.directory (Text.Path.absolute tree.workingDirectory path))
    (Assembly.labelName project.name ++ ".dmc")

/-- Writes the samples where there are any. -/
def saveSamples (tree : FileTree) (path : Text.Points) : Option Bytes → Outcome FileTree
  | some samples => tree.write path samples
  | none => pure tree

/-- Exports a project and writes what it consists of. An empty path for the samples counts as
none. -/
def save (tree : FileTree) (project : Project) (path : Text.Points)
    (sampleFile : Option Text.Points) (options : Options) (dialect : Assembly.Dialect) :
    Outcome (FileTree × Document) := do
  let document ← document project options
  let tree ← tree.writeText path (document.text dialect)
  let sampleFile := (sampleFile.filter (!·.isEmpty)).getD (samplePath tree project path)
  return (← saveSamples tree sampleFile document.samples, document)

end Chiptune.Export
