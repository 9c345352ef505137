/-!
# Rounding to integers

Durations are given as binary fractions. Such a number is a whole number of some power of two, so
it can be rounded exactly: to the nearest integer, and to the even one of two that are as near.
-/

namespace Chip8

/-- The integer nearest to a quotient, the even one of two that are as near. -/
def roundQuotient (n d : Nat) : Nat :=
  let q := n / d
  let twice := 2 * (n % d)
  if twice < d then q
  else if d < twice then q + 1
  else if q % 2 = 0 then q
  else q + 1

inductive RoundingError
  | infinite
  | notANumber
  deriving DecidableEq, Repr

def RoundingError.message : RoundingError → String
  | infinite => "cannot convert float infinity to integer"
  | notANumber => "cannot convert float NaN to integer"

/-- The magnitude of a finite number with the given exponent and fraction bits, rounded. Numbers
with exponent zero lack the leading bit of the others. -/
def roundMagnitude (exponent fraction : Nat) : Nat :=
  let mantissa := if exponent = 0 then fraction else fraction + 4503599627370496
  let exponent := max exponent 1
  if 1075 ≤ exponent then mantissa * Nat.pow 2 (exponent - 1075)
  else roundQuotient mantissa (Nat.pow 2 (1075 - exponent))

def nearestInt (x : Float) : Except RoundingError Int :=
  let bits := x.toBits.toNat
  let negative := bits / 9223372036854775808 = 1
  let exponent := bits / 4503599627370496 % 2048
  let fraction := bits % 4503599627370496
  if exponent = 2047 then .error (if fraction = 0 then .infinite else .notANumber)
  else
    let magnitude : Int := roundMagnitude exponent fraction
    .ok (if negative then -magnitude else magnitude)

section

open Float.Model

end

end Chip8
