import Chiptune.Text.Numeral

/-!
# Decimal numbers in written form

Digits with a point and an exponent, infinity and the value that is no number. Single underscores
may stand between digits.
-/

namespace Chiptune.Text

inductive Decimal
  /-- The number `mantissa * 10 ^ exponent`. -/
  | finite (mantissa exponent : Int)
  | infinite (negative : Bool)
  | notANumber
  deriving DecidableEq, Repr

namespace Decimal

/-- Whether the number is at most `num / den`. What is no number is not. -/
def atMost (num : Int) (den : Nat) : Decimal → Bool
  | finite m e =>
    if 0 ≤ e then m * Nat.pow 10 e.toNat * den ≤ num else m * den ≤ num * Nat.pow 10 (-e).toNat
  | infinite negative => negative
  | notANumber => false

end Decimal

/-- Removes underscores, each of which must stand between two digits. -/
def withoutUnderscores? : (previous : Char) → List Char → Option (List Char)
  | _, [] => some []
  | previous, '_' :: c :: rest =>
    if previous.isDigit && c.isDigit then (withoutUnderscores? c rest).map (c :: ·) else none
  | _, ['_'] => none
  | _, c :: rest => (withoutUnderscores? c rest).map (c :: ·)

def digitsValue (digits : List Char) : Nat :=
  digits.foldl (fun n c => n * 10 + (c.toNat - '0'.toNat)) 0

def exponent? : List Char → Option Int
  | [] => some 0
  | c :: rest =>
    let (negative, digits) := match rest with
      | '-' :: digits => (true, digits)
      | '+' :: digits => (false, digits)
      | digits => (false, digits)
    if (c == 'e' || c == 'E') && !digits.isEmpty && digits.all Char.isDigit then
      some (if negative then -(digitsValue digits : Int) else digitsValue digits)
    else none

/-- A number without a sign. -/
def unsignedDecimal? (s : List Char) : Option Decimal :=
  let small := s.map Char.toLower
  if small = "inf".toList ∨ small = "infinity".toList then some (.infinite false)
  else if small = "nan".toList then some .notANumber
  else
    let whole := s.takeWhile Char.isDigit
    let rest := s.drop whole.length
    let (fraction, rest) := match rest with
      | '.' :: rest => (rest.takeWhile Char.isDigit, rest.dropWhile Char.isDigit)
      | rest => ([], rest)
    if whole.isEmpty && fraction.isEmpty then none
    else (exponent? rest).map fun e =>
      .finite (digitsValue (whole ++ fraction)) (e - fraction.length)

def Decimal.negate : Decimal → Decimal
  | finite m e => finite (-m) e
  | infinite negative => infinite !negative
  | notANumber => notANumber

def readDecimal? (s : List Char) : Option Decimal :=
  (withoutUnderscores? ' ' (trimNumeral s)).bind fun
    | '-' :: rest => (unsignedDecimal? rest).map Decimal.negate
    | '+' :: rest => unsignedDecimal? rest
    | s => unsignedDecimal? s

end Chiptune.Text
