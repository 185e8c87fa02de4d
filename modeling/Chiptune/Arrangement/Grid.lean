import Chiptune.Midi.Timeline
import Chiptune.Number.Basic
import Chiptune.Sound.Kernel

/-!
# The grid of rows

MIDI ticks become rows of the song. Row and tempo are rounded quotients in binary floating point.
-/

namespace Chiptune.Arrangement

open Number (finite quotient)

structure Grid where
  ticksPerRow : Binary64
  deriving DecidableEq, Repr

namespace Grid

def make (ticksPerBeat rowsPerBeat : Int) : Outcome Grid := do
  return ⟨← quotient ticksPerBeat rowsPerBeat⟩

/-- The row nearest to a tick. -/
def row (grid : Grid) (tick : Int) : Outcome Int := do
  if grid.ticksPerRow.mantissa = 0 then throw .divisionByZero
  return (← finite ((← finite (Binary64.ofInt? tick)).div? grid.ticksPerRow)).round

/-- The note in rows. It lasts for one row at least. -/
def align (grid : Grid) (note : Midi.NoteSpan) : Outcome Midi.NoteSpan := do
  let start ← grid.row note.start
  let stop ← grid.row note.stop
  return { note with start, duration := if stop ≤ start then 1 else stop - start }

/-- The notes in rows, again in order. -/
def alignAll (grid : Grid) (notes : List Midi.NoteSpan) : Outcome (List Midi.NoteSpan) := do
  return (← notes.mapM grid.align).mergeSort Midi.NoteSpan.before

end Grid

def slowest : Int := 32
def fastest : Int := 255

/-- The tempo at which the driver plays `rowsPerBeat` rows in a beat of `bpm`. -/
def tempo (bpm : Number) (rowsPerBeat speed : Int) : Outcome Int := do
  let frames ← (← bpm.mul (.integer rowsPerBeat)).mul (.integer speed)
  return Kernel.clamp slowest fastest (← (← frames.divNat 24).round)

/-- The beats in a minute, from the microseconds of a beat. -/
def beatsPerMinute (microseconds : Int) : Outcome Number := do
  return .real (← quotient 60000000 microseconds)

/-- The volume for a key velocity. A note is never silent. -/
def volume (velocity : Int) : Outcome Int := do
  return Kernel.clamp 1 15 (← quotient (velocity * 15) 127).round

/-- The MIDI key whose note value would be zero. -/
def lowestKey : Int := 11

def noteValue (key : Int) : Int := Kernel.clamp Note.lowest Note.highest (key - lowestKey)

end Chiptune.Arrangement
