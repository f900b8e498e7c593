import LSystem.Decimal.Basic
set_option autoImplicit false

/-! # The shortest decimal that reads back as a float

For 1, 2, … significant digits the two neighbours of the value on that decimal grid are tried. The
first grid of which one reads back as the same float has the fewest digits possible, since a finer
grid contains the coarser ones; where both neighbours read back, the nearer one is taken, and of
two equally near ones the even one. -/

namespace LSystem.Decimal

open Binary64

/-- The least `k` from the given one upward with `num / den < 10 ^ k`, at most `fuel` steps up. -/
def decade (num den : Nat) : Nat → Int → Int
  | 0, k => k
  | fuel + 1, k =>
    let (n, d) := quotient ⟨1, k⟩
    if num * d < n * den then k else decade num den fuel (k + 1)

/-- Numerator and denominator of `num / den / 10 ^ g`. -/
def overPower (num den : Nat) (g : Int) : Nat × Nat :=
  if 0 ≤ g then (num, den * tenTo g.toNat) else (num * tenTo (-g).toNat, den)

/-- The neighbour of `num / den` among the multiples of `10 ^ g` that reads back as the given
    bits, if there is one, and the better of the two if both do. -/
def neighbour? (bits num den : Nat) (g : Int) : Option Decimal :=
  let (n, d) := overPower num den g
  let below : Decimal := ⟨n / d, g⟩
  let above : Decimal := ⟨n / d + 1, g⟩
  if below.roundedBits = bits then
    if above.roundedBits = bits then some ⟨roundQuotient n d, g⟩ else some below
  else if above.roundedBits = bits then some above
  else none

/-- The first hit on the grids of `used + 1`, `used + 2`, … digits below `10 ^ k`. -/
def search (bits num den : Nat) (k : Int) : Nat → Nat → Option Decimal
  | 0, _ => none
  | fuel + 1, used =>
    match neighbour? bits num den (k - (used + 1)) with
    | some d => some d
    | none => search bits num den k fuel (used + 1)

/-- The value `m · 2 ^ e` in full. -/
def exact (m : Nat) (e : Int) : Decimal :=
  if 0 ≤ e then ⟨m * twoTo e.toNat, 0⟩ else ⟨m * Nat.pow 5 (-e).toNat, e⟩

/-- The shortest decimal that reads back as the positive float `m · 2 ^ e`. Seventeen digits always
    do; the exact value stands behind them so that whatever is returned reads back. -/
def shortest (m : Nat) (e : Int) : Decimal :=
  let (num, den) := scaleDown m 1 (-e)
  let bits := magnitudeBits num den
  let low : Int := ((num.log2 : Int) - (den.log2 : Int) - 1) * 30103 / 100000
  let k := decade num den 5 low
  ((search bits num den k 17 0).getD (exact m e)).trim

end LSystem.Decimal
