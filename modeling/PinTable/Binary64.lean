set_option autoImplicit false

/- Binary floating point with 53 bits of precision, as exact integers: a magnitude is
`significand * 2 ^ exponent`, and each operation rounds the exact result once, to the nearest
representable magnitude and on a tie to the one whose last bit is zero. -/
namespace PinTable

/-- The integer nearest to `a / b`; halfway, the even one. -/
def roundDiv (a b : Nat) : Nat :=
  let quotient := a / b
  let twice := 2 * (a % b)
  if b < twice ∨ (twice = b ∧ quotient % 2 = 1) then quotient + 1 else quotient

/-- The exact number `significand * 2 ^ exponent`, which is never negative. -/
structure Magnitude where
  significand : Nat
  exponent : Int

namespace Magnitude

/-- Least exponent of the format: smaller numbers lose precision instead. -/
def leastExponent : Int := -1074

/-- Greatest exponent of a significand with 53 bits. -/
def greatestExponent : Int := 971

/-- The significand of `num / den * 2 ^ scale` at the given exponent, as a fraction. -/
def fractionAt (num den : Nat) (scale exponent : Int) : Nat × Nat :=
  (num * Nat.pow 2 (scale - exponent).toNat, den * Nat.pow 2 (exponent - scale).toNat)

/-- Rounds `num / den * 2 ^ scale` to 53 bits, or to the bits that the least exponent leaves.
There is no result where the rounded number is beyond the greatest finite one. -/
def round? (num den : Nat) (scale : Int) : Option Magnitude :=
  if num = 0 then some ⟨0, leastExponent⟩
  else
    let guess := scale + num.log2 - den.log2 - 53
    let fraction := fractionAt num den scale guess
    let tight := if fraction.1 / fraction.2 < Nat.pow 2 53 then guess else guess + 1
    let exponent := max tight leastExponent
    let fraction := fractionAt num den scale exponent
    let significand := roundDiv fraction.1 fraction.2
    if greatestExponent < exponent ∨
        (exponent = greatestExponent ∧ Nat.pow 2 53 ≤ significand) then none
    else some ⟨significand, exponent⟩

/-- The magnitude nearest to a natural number. -/
def ofNat? (n : Nat) : Option Magnitude := round? n 1 0

def mul? (x y : Magnitude) : Option Magnitude :=
  round? (x.significand * y.significand) 1 (x.exponent + y.exponent)

/-- The rounded quotient by a magnitude that is not zero. -/
def div? (x y : Magnitude) : Option Magnitude :=
  round? x.significand y.significand (x.exponent - y.exponent)

/-- Greatest power of ten that the format holds. -/
def greatestPower : Nat := 308

/-- Multiplies by a power of ten, in one rounded step where the power is representable. Below
that, steps of `10 ^ 308` are divided out until the number vanishes; above it, only zero has a
result. -/
def scaleTen? (x : Magnitude) (exponent : Int) : Option Magnitude :=
  if exponent.natAbs ≤ greatestPower then do
    let power ← ofNat? (Nat.pow 10 exponent.natAbs)
    if 0 ≤ exponent then x.mul? power else x.div? power
  else if x.significand = 0 then some x
  else if 0 ≤ exponent then none
  else do
    let power ← ofNat? (Nat.pow 10 greatestPower)
    let smaller ← x.div? power
    smaller.scaleTen? (exponent + greatestPower)
termination_by exponent.natAbs
decreasing_by
  simp only [greatestPower] at *
  omega

def floor (x : Magnitude) : Nat :=
  x.significand * Nat.pow 2 x.exponent.toNat / Nat.pow 2 (-x.exponent).toNat

end Magnitude

/-- A finite binary64 number. The sign stands apart, so that zero has two. -/
structure Binary64 where
  negative : Bool
  magnitude : Magnitude

namespace Binary64

/-- Rounds toward zero to an integer. -/
def truncate (x : Binary64) : Int :=
  if x.negative then -(x.magnitude.floor : Int) else x.magnitude.floor

end Binary64

end PinTable
