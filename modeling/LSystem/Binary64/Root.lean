import LSystem.Binary64.Basic
set_option autoImplicit false

/-! # Correctly rounded hypotenuse

The squares of two floats have an exact sum, a natural number times a power of four. Its integer
root, taken with spare bits, and the knowledge whether the root is exact decide how the hypotenuse
rounds: an inexact root stands between two neighbouring integers, and any point between them rounds
alike. -/

namespace LSystem.Binary64

/-- The integer part of the square root, one binary digit for each two of `n`. -/
def floorRoot : Nat → Nat → Nat
  | 0, _ => 0
  | fuel + 1, n =>
    if n = 0 then 0
    else
      let r := 2 * floorRoot fuel (n / 4)
      if (r + 1) * (r + 1) ≤ n then r + 1 else r

/-- The root of `n · 4 ^ e`, rounded once: the integer root of `n · 2 ^ 128` has at least 64 bits,
    and a last bit of one half stands for whatever an inexact root leaves over. -/
def nearestRoot (n : Nat) (e : Int) : Float :=
  let wide := n * twoTo 128
  let r := floorRoot (wide.log2 + 1) wide
  let twice := if r * r = wide then 2 * r else 2 * r + 1
  let (num, den) := scaleDown twice 1 (65 - e)
  nearest false num den

/-- The length of the hypotenuse over `x` and `y`, correctly rounded. An infinite side makes it
    infinite even where the other one is NaN. -/
def hypotenuse (x y : Float) : Float :=
  match decode x, decode y with
  | .infinite _, _ => 1.0 / 0.0
  | _, .infinite _ => 1.0 / 0.0
  | .nan, _ => 0.0 / 0.0
  | _, .nan => 0.0 / 0.0
  | .finite _ m d, .finite _ n e =>
    let low := min d e
    let a := m * twoTo (d - low).toNat
    let b := n * twoTo (e - low).toNat
    nearestRoot (a * a + b * b) low

end LSystem.Binary64
