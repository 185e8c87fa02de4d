/-!
# Capacities of the sound driver and of its data formats
-/

namespace Chiptune.Limits

/-- The song header table is indexed by one byte and holds fourteen bytes a song. -/
def songs : Nat := (256 - 5) / 14

/-- Slots of one song. -/
def slots : Nat := 256

/-- Patterns of one channel over all songs. -/
def patterns : Nat := 128 * songs

/-- Pattern buffers that one export may hold unless the caller asks for fewer. -/
def packedPatterns : Nat := 5 * patterns * songs

/-- Shortest piece that the search for a split considers. -/
def pieceRows : Nat := 6

/-- The instrument command carries six bits. -/
def instruments : Nat := 64

/-- The length byte of a sample counts units of sixteen bytes. -/
def sampleUnits : Nat := 255

/-- The offset byte of a sample counts units of 64 bytes. -/
def sampleBank : Nat := 0x4000

/-- Positions in an envelope are one byte. -/
def envelopeBytes : Nat := 256

end Chiptune.Limits
