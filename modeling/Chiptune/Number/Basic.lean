import Chiptune.Error
import Chiptune.Number.Binary64

/-!
# Numbers

Integers, which are exact, next to binary floating point numbers, which may be infinite or no number
at all. As soon as a floating point number takes part, so does the result. An infinite number has no
sign.
-/

namespace Chiptune

inductive Number
  | integer (value : Int)
  | real (value : Binary64)
  | infinite
  | notANumber
  deriving DecidableEq, Repr

namespace Number

/-- A result that is too large for a floating point number is refused. -/
def finite (x : Option Binary64) : Outcome Binary64 :=
  match x with
  | some x => pure x
  | none => throw .infinite

/-- The quotient of two integers. -/
def quotient (num den : Int) : Outcome Binary64 :=
  if den = 0 then throw .divisionByZero else finite (Binary64.nearest? (num * den.sign) den.natAbs)

/-- The number in floating point. -/
def toReal : Number → Outcome Number
  | integer value => do return real (← finite (Binary64.ofInt? value))
  | x => pure x

/-- A result that is too large counts as infinite. -/
def ofResult : Option Binary64 → Number
  | some x => real x
  | none => infinite

def isZero : Number → Bool
  | integer value => value == 0
  | real value => value.mantissa == 0
  | _ => false

/-- The product of two floating point numbers. -/
def mulReal : Number → Number → Number
  | real x, real y => ofResult (x.mul? y)
  | notANumber, _ | _, notANumber => notANumber
  | x, y => if x.isZero || y.isZero then notANumber else infinite

def mul : Number → Number → Outcome Number
  | integer m, integer n => pure (integer (m * n))
  | x, y => do return mulReal (← x.toReal) (← y.toReal)

/-- The quotient by a natural number that is not zero. -/
def divNat (x : Number) (n : Nat) : Outcome Number :=
  match x with
  | integer value => do return real (← quotient value n)
  | real value => pure (ofResult (value.div? ⟨n, 0⟩))
  | x => pure x

/-- The nearest integer. -/
def round : Number → Outcome Int
  | integer value => pure value
  | real value => pure value.round
  | infinite => throw .infinite
  | notANumber => throw .notANumber

/-- The integer that is left without the fraction. -/
def truncate : Number → Outcome Int
  | integer value => pure value
  | real value => pure value.truncate
  | infinite => throw .infinite
  | notANumber => throw .notANumber

end Number

end Chiptune
