import Chiptune.Bytes
import Chiptune.Text.CodePoint

/-!
# Samples

Recorded sounds for the DPCM channel. A mapping assigns one to a note value.
-/

namespace Chiptune

structure Sample where
  id : Nat
  name : Text.Points
  data : Bytes
  deriving DecidableEq, Repr

namespace Sample

/-- Samples start at multiples of this many bytes. -/
def alignment : Nat := 64

/-- The bytes that a sample occupies in the blob. -/
def alignedSize (sample : Sample) : Nat :=
  (sample.data.length + alignment - 1) / alignment * alignment

def padded (sample : Sample) : Bytes :=
  sample.data ++ List.replicate (sample.alignedSize - sample.data.length) 0

end Sample

structure SampleMapping where
  sample : Option Sample := none
  pitch : Int := 15
  loop : Bool := false
  deriving DecidableEq, Repr

end Chiptune
