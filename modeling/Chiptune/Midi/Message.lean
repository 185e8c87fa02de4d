/-!
# MIDI messages

The messages that matter for a song, with the ticks since the message before them in their track.
-/

namespace Chiptune.Midi

inductive Event
  | noteOn (channel key velocity : Nat)
  | noteOff (channel key : Nat)
  | program (channel number : Nat)
  /-- The microseconds of a quarter note. -/
  | tempo (microseconds : Int)
  | other
  deriving DecidableEq, Repr

structure Message where
  delta : Int
  event : Event
  deriving DecidableEq, Repr

abbrev Track := List Message

structure Score where
  type : Int
  ticksPerBeat : Int
  tracks : List Track
  deriving Repr

end Chiptune.Midi
