import Chiptune.Arrangement.Grid
import Chiptune.Arrangement.Warning
import Chiptune.Fti
import Chiptune.InstrumentMap

/-!
# The ensemble

The instruments of an arrangement are made when the first note asks for them, one for each program
of the instrument map and one for all other programs.
-/

namespace Chiptune.Arrangement

/-- The program changes of a channel at their rows. -/
structure ProgramRows where
  channel : Nat
  changes : Array (Int × Nat)
  deriving Repr

/-- What the instruments depend on. -/
structure Score where
  tree : FileTree
  map : InstrumentMap
  programs : List ProgramRows
  useVelocity : Bool := false

/-- The instruments made so far, each for a program of the map or for all the others. -/
structure Ensemble where
  instruments : List (Option Int × Instrument) := []
  warnings : List Warning := []
  deriving Repr

abbrev Session := StateT Ensemble Outcome

def warn (warning : Warning) : Session Unit :=
  modify fun ensemble => { ensemble with warnings := ensemble.warnings ++ [warning] }

/-- Halves the changes from `low` to `high` until the ones up to `row` are apart from the later
ones, and returns their number. The changes are taken to be in order of their rows. -/
def changesUpTo (row : Int) (changes : Array (Int × Nat)) (low high : Nat) : Nat :=
  if _ : low < high then
    let middle := (low + high) / 2
    if row < (changes.getD middle (0, 0)).1 then changesUpTo row changes low middle
    else changesUpTo row changes (middle + 1) high
  else low
  termination_by high - low

/-- The program in force in a row: the last change up to it, or the default one. -/
def Score.program (score : Score) (channel : Nat) (row : Int) : Int :=
  let changes := ((score.programs.find? (·.channel == channel)).map (·.changes)).getD #[]
  match changesUpTo row changes 0 changes.size with
  | 0 => score.map.defaultProgram
  | count + 1 => (changes.getD count (0, 0)).2

/-- The program under which the map holds the instrument of another, if it holds it. -/
def Score.mapped? (score : Score) (program : Int) : Option Int :=
  if score.map.programs.any (·.1 == program) then some program else none

def Score.spec (score : Score) (program : Option Int) : InstrumentSpec :=
  match program with
  | some number => (score.map.programs.lookup number).getD score.map.default
  | none => score.map.default

def programName : Option Int → String
  | some number => s!"program {number}"
  | none => "default"

def InstrumentSpec.instrument (spec : InstrumentSpec) (id : InstrumentId) (name : String) :
    Instrument :=
  { id, name, duty := spec.duty, volume := spec.volume, arpeggio := spec.arpeggio,
    pitch := spec.pitch }

/-- The instrument of a file or, where that cannot be read, of the map. -/
def makeInstrument (tree : FileTree) (id : InstrumentId) (name : String) (spec : InstrumentSpec) :
    Session Instrument := do
  match spec.fti with
  | none => return InstrumentSpec.instrument spec id name
  | some path =>
    match Fti.load? id (← tree.read path) with
    | some loaded =>
      return { loaded with name := if loaded.name.isEmpty then name else loaded.name }
    | none =>
      warn (.unreadableInstrument path)
      return InstrumentSpec.instrument spec id name

/-- The instrument that a channel plays in a row. -/
def instrumentFor (score : Score) (channel : Nat) (row : Int) : Session InstrumentId := do
  let program := score.mapped? (score.program channel row)
  let known := (← get).instruments
  match known.lookup program with
  | some instrument => return instrument.id
  | none =>
    let instrument ←
      makeInstrument score.tree known.length (programName program) (score.spec program)
    modify fun ensemble =>
      { ensemble with instruments := ensemble.instruments ++ [(program, instrument)] }
    return instrument.id

def noteVolume (score : Score) (note : Midi.NoteSpan) : Outcome (Option Int) := do
  if score.useVelocity then return some (← volume note.velocity)
  return none

/-- A note of a voice that has an instrument. -/
def pitchedNote (score : Score) (value : Int) (note : Midi.NoteSpan) : Session Note := do
  let volume ← noteVolume score note
  let instrument ← instrumentFor score note.channel note.start
  return { value, volume, instrument := some instrument }

def toneNote (score : Score) (note : Midi.NoteSpan) : Session Note :=
  pitchedNote score (noteValue note.key) note

/-- The noise periods of the drums, where a higher one is brighter. -/
def drumPeriods : List (Nat × Int) := [
  (35, 3), (36, 3),
  (38, 8), (40, 8),
  (37, 10), (39, 10),
  (41, 5), (43, 5), (45, 6), (47, 6), (48, 7), (50, 7),
  (42, 14), (44, 14), (46, 13),
  (49, 12), (51, 13), (52, 12), (55, 12), (57, 12), (59, 13)]

def noiseNote (score : Score) (note : Midi.NoteSpan) : Session Note :=
  pitchedNote score ((drumPeriods.lookup note.key).getD 0) note

def sampleNote (note : Midi.NoteSpan) : Session Note :=
  return { value := noteValue note.key }

end Chiptune.Arrangement
