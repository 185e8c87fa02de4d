/-!
# Sequences of bytes
-/

namespace Chiptune

abbrev Bytes := List UInt8

namespace Bytes

/-- The value of the bytes, least significant first. -/
def littleEndian : Bytes → Nat
  | [] => 0
  | b :: rest => b.toNat + 256 * littleEndian rest

def bigEndian (bytes : Bytes) : Nat := littleEndian bytes.reverse

/-- `n` as a signed number of `bits` bits. -/
def signed (bits n : Nat) : Int :=
  if n < Nat.pow 2 (bits - 1) then n else n - Nat.pow 2 bits

/-- The low byte of a number. -/
def low (n : Int) : UInt8 := UInt8.ofNat (n % 256).toNat

/-- The two low bytes of a number, the lower one first. -/
def lowWord (n : Int) : Bytes := [low n, low (n / 256)]

end Bytes

end Chiptune
