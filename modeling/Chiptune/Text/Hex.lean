/-!
# Hexadecimal notation
-/

namespace Chiptune.Text

def hexDigit (n : Nat) : Char := "0123456789abcdef".toList.getD (n % 16) '0'

/-- The digits of `n`, most significant first. -/
def hexDigits (n : Nat) : List Char :=
  if n < 16 then [hexDigit n] else hexDigits (n / 16) ++ [hexDigit n]

/-- `n` in at least two places. -/
def hexPair (n : Nat) : List Char := if n < 16 then ['0', hexDigit n] else hexDigits n

/-- The two places count the sign of a negative number. -/
def hexPairInt (n : Int) : List Char :=
  if n < 0 then '-' :: hexDigits n.natAbs else hexPair n.toNat

def hexByte (b : UInt8) : List Char := [hexDigit (b.toNat / 16), hexDigit b.toNat]

end Chiptune.Text
