import LSystem.Binary64.Basic
set_option autoImplicit false

/-! # Decimals and the floats they round to

A decimal is a natural number of units of a power of ten. `toFloat` gives the nearest float, so a
decimal with many digits, or far outside the range of floats, is still rounded exactly once. -/

namespace LSystem

/-- The number `digits · 10 ^ exponent`. -/
structure Decimal where
  digits : Nat
  exponent : Int
  deriving DecidableEq, Repr

namespace Decimal

open Binary64

/-- Numerator and denominator of a decimal. -/
def quotient (d : Decimal) : Nat × Nat :=
  if 0 ≤ d.exponent then (d.digits * tenTo d.exponent.toNat, 1)
  else (d.digits, tenTo (-d.exponent).toNat)

/-- The bits, sign apart, of the float nearest to a decimal. -/
def roundedBits (d : Decimal) : Nat :=
  let (num, den) := d.quotient
  magnitudeBits num den

/-- The decimal without zeros at the end of its digits. -/
def trim (d : Decimal) : Decimal :=
  if h : d.digits ≠ 0 ∧ d.digits % 10 = 0 then
    trim ⟨d.digits / 10, d.exponent + 1⟩
  else d
termination_by d.digits
decreasing_by omega

/-- The float nearest to `± d`. A decimal below `10 ^ (-330)` rounds to zero and one of at least
    `10 ^ 310` to infinity, whatever its digits, so that these are never written out. -/
def toFloat (negative : Bool) (d : Decimal) : Float :=
  let size : Int := (Nat.toDigits 10 d.digits).length + d.exponent
  if d.digits = 0 ∨ size < -330 then nearest negative 0 1
  else if 310 < size then nearest negative (twoTo 1024) 1
  else
    let (num, den) := d.quotient
    nearest negative num den

end Decimal

end LSystem
