import LSystem.Power
set_option autoImplicit false

/-! # Binary64: what a float stands for, and the float nearest to a quotient

A finite float is `± significand · 2 ^ exponent` with a significand below `2 ^ 53`; `decode` reads
this off the bits. In the other direction `nearest` rounds an exact quotient of natural numbers
once, to the nearest float, a tie going to the even significand. Everything in this library that
is to be correctly rounded (read decimals, sines, roots) is computed exactly and ends in `nearest`,
so it is rounded exactly once. -/

namespace LSystem.Binary64

/-! ## Decoding -/

/-- What a float stands for: `finite s m e` is `± m · 2 ^ e`, negative when `s`. -/
inductive Value where
  | nan
  | infinite (negative : Bool)
  | finite (negative : Bool) (significand : Nat) (exponent : Int)
  deriving DecidableEq, Repr

/-- Split the bits into sign, exponent field and fraction. -/
def decode (x : Float) : Value :=
  let bits := x.toBits.toNat
  let negative := bits / twoTo 63 == 1
  let field : Nat := bits / twoTo 52 % twoTo 11
  let fraction := bits % twoTo 52
  if field = 2047 then
    if fraction = 0 then .infinite negative else .nan
  else if field = 0 then .finite negative fraction (-1074)
  else .finite negative (twoTo 52 + fraction) ((field : Int) - 1075)

/-- Whether a float is neither infinite nor NaN. -/
def isFinite (x : Float) : Bool :=
  match decode x with
  | .finite .. => true
  | _ => false

/-! ## Rounding a quotient -/

/-- The integer nearest to `num / den`, a tie going to the even one. -/
def roundQuotient (num den : Nat) : Nat :=
  let floor := num / den
  let twice := 2 * (num % den)
  if twice < den ∨ (twice = den ∧ floor % 2 = 0) then floor else floor + 1

/-- Numerator and denominator of `num / den / 2 ^ e`. -/
def scaleDown (num den : Nat) (e : Int) : Nat × Nat :=
  if 0 ≤ e then (num, den * twoTo e.toNat) else (num * twoTo (-e).toNat, den)

/-- The bits, sign apart, of the float nearest to `num / den`.

    With `top` the difference of the binary logarithms the quotient lies between `2 ^ (top - 1)`
    and `2 ^ (top + 1)`, so one of two exponents leaves a significand of 53 bits; below the normal
    range the exponent stays at its least value. A significand that rounds up to `2 ^ 53` carries
    into the exponent field by itself, and past the largest float into infinity. -/
def magnitudeBits (num den : Nat) : Nat :=
  if num = 0 then 0 else
    let top : Int := (num.log2 : Int) - (den.log2 : Int)
    let low : Int := max (top - 53) (-1074)
    let (n, d) := scaleDown num den low
    let e := if n / d < twoTo 53 then low else low + 1
    let (n, d) := scaleDown num den e
    min ((e + 1074).toNat * twoTo 52 + roundQuotient n d) (2047 * twoTo 52)

/-- The float nearest to `± num / den`; zero keeps its sign. -/
def nearest (negative : Bool) (num den : Nat) : Float :=
  Float.ofBits (UInt64.ofNat ((if negative then twoTo 63 else 0) + magnitudeBits num den))

/-- The float nearest to a whole number. -/
def ofNat (n : Nat) : Float := nearest false n 1

/-! ## Angles -/

/-- The float nearest to π. -/
def pi : Float := Float.ofBits 0x400921fb54442d18

/-- Degrees to radians: one product with the float `π / 180`. -/
def radians (degrees : Float) : Float := degrees * (pi / 180.0)

/-- Radians to degrees: one product with the float `180 / π`. -/
def degrees (radians : Float) : Float := radians * (180.0 / pi)

/-- The `k`-th part of a full turn, in radians. -/
def turnOver (k : Float) : Float := 2.0 * pi / k

end LSystem.Binary64
