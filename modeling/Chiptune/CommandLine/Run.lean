import Chiptune.CommandLine.Settings
import Chiptune.Export.Link
import Chiptune.Export.Save

/-!
# A run of the program

`run` reads a MIDI file and perhaps an instrument map from a file tree and writes the music data
into it. What the run prints and how it ends is told apart from the tree, so that a run that fails
late shows what it has written by then.

Nothing is taken for granted of what the run prints to: it may refuse a line for its characters or
for any reason of its own, and the run does not handle that. The words of the command line may hold
halves of surrogate pairs, and the lines that repeat them do, too. What the reader of the command
line says itself, about a word that it refuses or as help, is left out.
-/

namespace Chiptune.CommandLine

open Text (Points)

/-- What has been printed, in order, and the line that follows give the error with which that line
is refused, if it is. -/
abbrev Console := (printed : List Points) → (line : Points) → Option Error

namespace Console

/-- Takes every line. -/
def accepting : Console := fun _ _ => none

/-- Takes the lines that UTF-8 can encode. -/
def utf8 : Console := fun _ line => if line.isWhole then none else some .notEncodable

end Console

/-- What a run has left behind so far. -/
structure World where
  tree : FileTree
  printed : List Points := []

/-- Why a run stops early: with an exit code, or by an error that the program does not handle. -/
inductive Stop
  | exit (code : Nat)
  | crash (error : Error)
  deriving DecidableEq, Repr

abbrev Program := ReaderT Console (ExceptT Stop (StateM World))

/-- What becomes of a line that the console has answered. -/
def answered (line : Points) : (refusal : Option Error) → Program Unit
  | some error => throw (.crash error)
  | none => modify fun world => { world with printed := world.printed ++ [line] }

def print (line : Points) : Program Unit := do
  answered line ((← read) (← get).printed line)

/-- Ends the run with a complaint. -/
def complain {α : Type} (code : Nat) (text : Points) : Program α := do
  print ("Error: " ++ text)
  throw (.exit code)

/-- A result that the program needs; `handled` says with which code an error ends the run, if it
is one that the program expects. -/
def need {α : Type} (handled : Error → Option Nat) (result : Outcome α) : Program α :=
  match result with
  | .ok value => pure value
  | .error error => match handled error with
    | some code => complain code error.message
    | none => throw (.crash error)

def noneHandled : Error → Option Nat := fun _ => none

/-- Files that cannot be read and documents that make no sense are the fault of the user. -/
def isInputFault : Error → Option Nat
  | .file _ | .arrangement _ => some 2
  | _ => none

/-- So are files that hold no score. Three faults of a score are not expected. -/
def isScoreFault : Error → Option Nat
  | .midi .badKeySignature | .midi .surplusData | .midi .badExclusiveData => none
  | .midi _ => some 2
  | error => isInputFault error

def isExportFault : Error → Option Nat
  | .unexportable _ => some 1
  | _ => none

/-- Carries on with the tree that a file was written into. -/
def keep (written : Outcome FileTree) : Program Unit := do
  let tree ← need noneHandled written
  modify fun world => { world with tree }

def write (path : Points) (content : Bytes) : Program Unit := do
  keep ((← get).tree.write path content)

def loadMap (settings : Settings) : Program InstrumentMap := do
  match settings.instrumentMap with
  | some path => need isInputFault (InstrumentMap.load (← get).tree path)
  | none => return {}

/-- Whether the text of a run can be encoded. The name of the song stands in it as it is. -/
def isEncodable (settings : Settings) (warnings : List Arrangement.Warning) : Bool :=
  settings.songName.isWhole && warnings.all (·.text.isWhole)

/-- The text of a document with the warnings as comments in front of it. -/
def annotated (warnings : List Arrangement.Warning) (text : String) : String :=
  String.join (warnings.map fun warning => ";warning: " ++ warning.text.shown ++ "\n") ++ text

/-- A value that the run cannot do without. -/
def known {α : Type} (value : Option α) : Program α :=
  match value with
  | some value => pure value
  | none => throw (.crash .wrongKind)

/-- The kernel or the dialect of a run. -/
def chosen {α : Type} (value : Option α) : Program α :=
  match value with
  | some value => pure value
  | none => throw (.crash .noChoice)

/-- Ends the run if a value of an option makes no sense. -/
def demand (condition : Bool) (text : Points) : Program Unit :=
  if condition then pure () else complain 2 text

/-- The numbers of a run. The first that is missing or makes no sense ends it. -/
def checkNumbers (settings : Settings) : Program Numbers := do
  let rowsPerBeat ← known settings.rowsPerBeat
  demand (0 < rowsPerBeat) "--rows-per-beat must be > 0."
  let patternLength ← known settings.patternLength
  demand (Limits.pieceRows ≤ patternLength && patternLength ≤ Limits.slots)
    s!"--pattern-length must be {Limits.pieceRows}..{Limits.slots}."
  let speed ← known settings.speed
  demand (0 < speed) "--speed must be > 0."
  let tempo ← settings.tempo.mapM known
  demand (tempo.all fun tempo => 32 ≤ tempo && tempo ≤ 255) "--tempo must be 32..255."
  let channels ← known settings.channels
  demand (1 ≤ channels && channels ≤ 3) "--channels must be 1..3."
  let capacity ← known settings.capacity
  demand (0 < capacity) "--max-packed-patterns must be > 0."
  return { rowsPerBeat, patternLength, speed, tempo, channels, capacity }

/-- The file for the samples: the one asked for, or one beside the output. -/
def samplePath (settings : Settings) (project : Project) : Program Points := do
  match settings.sampleOutput with
  | some path => return path
  | none => return Export.samplePath (← get).tree project (← known settings.output)

/-- An error of the export, which calls the song what the settings call it. -/
def callSong (settings : Settings) : Error → Error
  | .unexportable (.songTooComplex _) => .unexportable (.songTooComplex settings.songName)
  | error => error

/-- Writes the linked bytes and returns their number and the samples. -/
def writeBinary (settings : Settings) (options : Export.Options) (project : Project) :
    Program (Nat × Option Bytes) := do
  let (bytes, samples) ← need isExportFault <|
    (Export.link project options settings.songOffset settings.sampleOffset).mapError
      (callSong settings)
  write (← known settings.output) bytes
  return (bytes.length, samples)

/-- Writes the text and returns the number of bytes that it stands for and the samples. -/
def writeText (settings : Settings) (options : Export.Options) (project : Project)
    (warnings : List Arrangement.Warning) : Program (Nat × Option Bytes) := do
  let dialect ← chosen settings.dialect
  let document ← need isExportFault <|
    (Export.document project options).mapError (callSong settings)
  let path ← known settings.output
  if !isEncodable settings warnings then
    -- The file is open, and empty, by the time its text turns out to have no encoding.
    write path []
    throw (.crash .notEncodable)
  keep ((← get).tree.writeText path (annotated warnings (document.text dialect)))
  for (song, number) in document.songs.zipIdx do
    print ("Song " ++ Export.summaryText song number)
  return (document.size, document.samples)

/-- Writes the samples, if there are any, and tells what was written. -/
def finish (settings : Settings) (size : Nat) (samplePath : Points) (samples : Option Bytes) :
    Program Unit := do
  if let some samples := samples then
    write samplePath samples
    print (s!"Wrote {samples.length} sample bytes to " ++ samplePath)
  let output ← known settings.output
  print (s!"Wrote {size} bytes of music data to " ++ output)

def convert (settings : Settings) : Program Unit := do
  let numbers ← checkNumbers settings
  if !(← get).tree.isFile settings.input then
    complain 2 ("input not found: " ++ settings.input)
  let map ← loadMap settings
  let (project, warnings) ← need isScoreFault
    (Arrangement.ofFile (← get).tree settings.input (settings.arrangement numbers) map)
  for warning in warnings do print ("Warning: " ++ warning.text)
  let samplePath ← samplePath settings project
  let kernel ← chosen settings.kernel
  let options : Export.Options := { kernel, capacity := numbers.capacity }
  let (size, samples) ← if settings.binary then writeBinary settings options project
    else writeText settings options project warnings
  finish settings size samplePath samples

def program (words : List Points) : Program Unit :=
  match Settings.ofWords words with
  | .refused => throw (.exit 2)
  | .help => throw (.exit 0)
  | .run settings => convert settings

/-- How a run ended. -/
structure Report where
  tree : FileTree
  printed : List Points
  exit : Outcome Nat

def run (console : Console) (tree : FileTree) (words : List Points) : Report :=
  let (result, world) := ((program words).run console).run { tree }
  { tree := world.tree
    printed := world.printed
    exit := match result with
      | .ok () => pure 0
      | .error (.exit code) => pure code
      | .error (.crash error) => throw error }

end Chiptune.CommandLine
