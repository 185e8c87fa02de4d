import Chiptune.Text.Blank
import Chiptune.Text.Digit

/-!
# Integers in written form

Blanks may stand around the numeral, a sign before it and single underscores between its digits,
which may be of any script. A base may be announced by `0x`, `0o` or `0b`, with any zero; where the
base is left open, a numeral without such a mark is decimal and starts with a zero only if it is
zero.
-/

namespace Chiptune.Text

inductive Base
  | decimal
  | hexadecimal
  | announced
  deriving DecidableEq, Repr

/-- Longest numeral that is read in a base that is no power of two. -/
def maxDecimalDigits : Nat := 4300

/-- Whether a number has no more digits than that, so that it can be written. -/
def isWritable (n : Int) : Bool := n.natAbs < Nat.pow 10 maxDecimalDigits

/-- Among the ASCII characters only six count as blanks around a numeral. -/
def isNumeralBlank (c : Char) : Bool :=
  isBlank c && !(0x1C ≤ c.toNat && c.toNat ≤ 0x1F)

/-- The value of a run of digits with single underscores between them, and their number. -/
def digitRun? (base : Nat) :
    (value count : Nat) → (afterSeparator : Bool) → List Char → Option (Nat × Nat)
  | value, count, afterSeparator, [] => if afterSeparator then none else some (value, count)
  | value, count, afterSeparator, c :: rest =>
    if c = '_' then if afterSeparator then none else digitRun? base value count true rest
    else match digitValue? c with
      | some d =>
        if d < base then digitRun? base (value * base + d) (count + 1) false rest else none
      | none => none

def isMark (small : Char) (c : Char) : Bool := c == small || c == small.toUpper

/-- The digits after an announcement may start with an underscore, those without one may not. -/
def afterMark : List Char → List Char
  | '_' :: rest => rest
  | s => s

def magnitude? (base : Base) (s : List Char) : Option Nat :=
  let decimal (s : List Char) := (digitRun? 10 0 0 true s).bind fun (value, count) =>
    if count ≤ maxDecimalDigits then some value else none
  let power (base : Nat) (s : List Char) := (digitRun? base 0 0 true s).map (·.1)
  match base, s with
  | .decimal, s => decimal s
  | .hexadecimal, '0' :: c :: rest =>
    if isMark 'x' c then power 16 (afterMark rest) else power 16 s
  | .hexadecimal, s => power 16 s
  | .announced, '0' :: c :: rest =>
    if isMark 'x' c then power 16 (afterMark rest)
    else if isMark 'o' c then power 8 (afterMark rest)
    else if isMark 'b' c then power 2 (afterMark rest)
    else (decimal s).bind fun value => if value = 0 then some 0 else none
  | .announced, s => decimal s

def trimNumeral (s : List Char) : List Char :=
  ((s.dropWhile isNumeralBlank).reverse.dropWhile isNumeralBlank).reverse

/-- The ASCII digit for a decimal digit of another script. -/
def plainDigit (c : Char) : Char :=
  if c.toNat < 0x80 then c
  else match digitValue? c with
    | some n => Char.ofNat ('0'.toNat + n)
    | none => c

def readInt? (base : Base) (s : List Char) : Option Int :=
  match (trimNumeral s).map plainDigit with
  | '-' :: rest => (magnitude? base rest).map fun n => -(n : Int)
  | '+' :: rest => (magnitude? base rest).map Int.ofNat
  | s => (magnitude? base s).map Int.ofNat

end Chiptune.Text
