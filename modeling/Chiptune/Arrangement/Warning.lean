import Chiptune.Text.CodePoint

/-!
# Warnings

What an arrangement leaves out or changes without failing.
-/

namespace Chiptune.Arrangement

inductive Warning
  | tempoChanges
  | truncated (slots : Nat)
  | clampedNotes (count : Nat)
  | droppedChannels (channels : List Nat)
  | unreadableInstrument (path : Text.Points)
  | droppedDrums (count : Nat)
  | loopPastEnd (row : Int)
  | loopMoved (row boundary : Int)
  deriving DecidableEq, Repr

def Warning.text : Warning → Text.Points
  | tempoChanges => "tempo changes ignored, using the first tempo"
  | truncated slots => s!"song truncated to {slots} patterns"
  | clampedNotes count => s!"{count} notes clamped to the playable range"
  | droppedChannels channels =>
    "MIDI channels dropped: " ++
      String.intercalate ", " (channels.map fun channel => toString (channel + 1))
  | unreadableInstrument path => "could not load instrument '" ++ path ++ "', using map values"
  | droppedDrums count => s!"{count} drum hits have no noise or sample mapping"
  | loopPastEnd row => s!"loop start row {row} is past the end, ignored"
  | loopMoved row boundary => s!"loop start row {row} moved to pattern boundary {boundary}"

end Chiptune.Arrangement
