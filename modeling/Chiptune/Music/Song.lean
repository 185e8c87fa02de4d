import Chiptune.Error
import Chiptune.Music.Note

/-!
# Songs

A song holds its patterns in one list, and the slots of its channels name them by position, so
that slots with the same position share one pattern. `split` cuts every pattern into equal pieces
and keeps the sharing inside each channel.
-/

namespace Chiptune

structure Channel where
  voice : Voice
  slots : List (Option Nat)
  deriving DecidableEq, Repr

namespace Channel

def empty (length : Nat) (voice : Voice) : Channel := ⟨voice, List.replicate length none⟩

/-- The positions of the patterns that the channel plays, in order of first use. -/
def used (channel : Channel) : List Nat := (channel.slots.filterMap id).eraseDups

end Channel

structure Song where
  id : Int
  name : String
  tempo : Int := 150
  speed : Int := 6
  patternLength : Nat := 64
  length : Nat := 1
  patterns : List Pattern := []
  channels : List Channel := []
  deriving DecidableEq, Repr

namespace Song

/-- A song with five channels and no pattern. -/
def blank (id : Int) (name : String) (tempo speed : Int) (patternLength length : Nat) : Song :=
  { id, name, tempo, speed, patternLength, length,
    channels := Voice.all.map (Channel.empty length) }

def pattern (song : Song) (position : Nat) : Pattern := song.patterns.getD position []

/-- The patterns that some slot plays, in order of first use, channel by channel. -/
def used (song : Song) : List Nat := (song.channels.flatMap Channel.used).eraseDups

def notes (song : Song) : List Note := song.used.flatMap song.pattern

def instrumentsUsed (song : Song) : List InstrumentId := song.notes.filterMap (·.instrument)

/-- The song with `change` applied to every note of its patterns. -/
def mapNotes (song : Song) (change : Note → Note) : Song :=
  { song with patterns := song.patterns.map (·.map change) }

/-- Puts a position or nothing into one slot of one channel. -/
def setSlot (song : Song) (channel slot : Nat) (content : Option Nat) : Outcome Song := do
  let some target := song.channels[channel]? | throw .outOfRange
  if slot < target.slots.length then
    let target := { target with slots := target.slots.set slot content }
    return { song with channels := song.channels.set channel target }
  throw .outOfRange

def slot? (song : Song) (channel slot : Nat) : Outcome (Option Nat) := do
  let some target := song.channels[channel]? | throw .outOfRange
  let some content := target.slots[slot]? | throw .outOfRange
  return content

/-- Puts a pattern of its own into a slot. -/
def place (song : Song) (channel slot : Nat) (pattern : Pattern) : Outcome Song :=
  setSlot { song with patterns := song.patterns ++ [pattern] } channel slot
    (some song.patterns.length)

/-- Lets slot `target` play the very pattern of slot `source`. -/
def share (song : Song) (channel source target : Nat) : Outcome Song := do
  song.setSlot channel target (← song.slot? channel source)

/-- Replaces one row of the pattern in a slot, for every slot that plays it. -/
def setRow (song : Song) (channel slot row : Nat) (note : Note) : Outcome Song := do
  match ← song.slot? channel slot with
  | none => throw .emptySlot
  | some position =>
    let rows := song.pattern position
    if row < rows.length then
      return { song with patterns := song.patterns.set position (rows.set row note) }
    throw .outOfRange

/-- Whether the two songs agree in all that they hold, which two separate songs with a pattern
never do, since each has its patterns for itself. -/
def sameContent (a b : Song) : Bool :=
  a.id == b.id && a.name == b.name && a.tempo == b.tempo && a.speed == b.speed &&
    a.patternLength == b.patternLength && a.length == b.length && a.channels == b.channels &&
    a.used.isEmpty

end Song

end Chiptune
