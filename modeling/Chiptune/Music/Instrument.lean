import Chiptune.Music.Note

/-!
# Instruments

A duty cycle and one envelope for each of volume, arpeggio and pitch. The loop and the release
point of an envelope are positions in its values; a position outside of them means that there is
none.
-/

namespace Chiptune

structure Envelope where
  values : List Int := []
  loop : Int := -1
  release : Int := -1
  deriving DecidableEq, Repr

structure Instrument where
  id : InstrumentId
  name : String
  duty : Int := 0
  volume : Option Envelope := none
  arpeggio : Option Envelope := none
  pitch : Option Envelope := none
  deriving DecidableEq, Repr

namespace Instrument

/-- Volume, arpeggio and pitch, in the order of the instrument table. -/
def envelopes (instrument : Instrument) : List (Option Envelope) :=
  [instrument.volume, instrument.arpeggio, instrument.pitch]

end Instrument

end Chiptune
