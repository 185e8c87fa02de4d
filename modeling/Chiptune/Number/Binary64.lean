/-!
# Binary floating point

Finite numbers of 53 significant bits with the exponents of binary64, in exact integers. Results are
rounded to the nearest such number, a tie to the even one. `roundHalfEven` is the same rule for
integers.
-/

namespace Chiptune

/-- The integer nearest to `num / den`, of two equally near the even one. -/
def roundHalfEven (num : Int) (den : Nat) : Int :=
  let floor := num / den
  let rest := num % den
  if 2 * rest < den then floor
  else if 2 * rest > den then floor + 1
  else floor + floor % 2

/-- The number `mantissa * 2 ^ exponent`. -/
structure Binary64 where
  mantissa : Int
  exponent : Int
  deriving DecidableEq, Repr

namespace Binary64

def significantBits : Nat := 53

def lowestExponent : Int := -1074

/-- Exponent of the largest numbers, with a mantissa of full length. -/
def highestExponent : Int := 971

/-- The quotient `num / den` over a power of two. -/
def overPower (num : Int) (den : Nat) (exponent : Int) : Int × Nat :=
  if 0 ≤ exponent then (num, den * Nat.pow 2 exponent.toNat)
  else (num * Nat.pow 2 (-exponent).toNat, den)

/-- The exponent at which `num / den` has a mantissa of full length, or the lowest one. -/
def exponentFor (num : Int) (den : Nat) : Int :=
  let low : Int := num.natAbs.log2 - den.log2 - significantBits
  let (n, d) := overPower num den low
  max lowestExponent (if n.natAbs < Nat.pow 2 significantBits * d then low else low + 1)

/-- The number nearest to `num / den`, unless that is too large. -/
def nearest? (num : Int) (den : Nat) : Option Binary64 :=
  if num = 0 then some ⟨0, 0⟩
  else
    let exponent := exponentFor num den
    let (n, d) := overPower num den exponent
    let mantissa := roundHalfEven n d
    if exponent > highestExponent ∨
        (exponent = highestExponent ∧ mantissa.natAbs = Nat.pow 2 significantBits) then none
    else some ⟨mantissa, exponent⟩

/-- Numerator and denominator. -/
def ratio (x : Binary64) : Int × Nat := overPower x.mantissa 1 (-x.exponent)

def ofInt? (n : Int) : Option Binary64 := nearest? n 1

def mul? (x y : Binary64) : Option Binary64 :=
  let (a, b) := x.ratio
  let (c, d) := y.ratio
  nearest? (a * c) (b * d)

/-- The quotient for a divisor that is not zero. -/
def div? (x y : Binary64) : Option Binary64 :=
  let (a, b) := x.ratio
  let (c, d) := y.ratio
  nearest? (a * d * c.sign) (b * c.natAbs)

def round (x : Binary64) : Int :=
  let (a, b) := x.ratio
  roundHalfEven a b

def truncate (x : Binary64) : Int :=
  let (a, b) := x.ratio
  a.tdiv b

end Binary64

end Chiptune
