set_option autoImplicit false

/-! # The powers that numbers are counted in

Floats count in powers of two and decimals in powers of ten. Both are natural numbers here; where an
exponent is negative the power stands in a denominator. -/

namespace LSystem

/-- The `n`-th power of two. -/
abbrev twoTo (n : Nat) : Nat := Nat.pow 2 n

/-- The `n`-th power of ten. -/
abbrev tenTo (n : Nat) : Nat := Nat.pow 10 n

end LSystem
