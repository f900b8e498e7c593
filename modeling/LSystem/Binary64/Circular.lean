import LSystem.Binary64.Basic
set_option autoImplicit false

/-! # Correctly rounded sine and cosine

An angle is an exact binary fraction, so its sine and cosine can be enclosed as tightly as one
likes by integer arithmetic: at precision `p` an integer `n` stands for `n / 2 ^ p`. The angle is
reduced by a multiple of a quarter turn, with π taken to as many further bits as the angle has in
front of its point; the two series of the rest give both functions up to a few units; and when both
ends of the enclosure round to the same float, that float is the correctly rounded value. Otherwise
the precision is doubled. Apart from the angle 0 the values are irrational, so no tie can keep the
two ends apart for ever.

Sine and cosine are computed from the magnitude of the angle alone; the sign of the angle only
decides the sign of the sine.

How exact the two are is left open by the standard library, and one platform may round an angle otherwise
than the next. To round correctly is one admissible choice, and the one that is made here. What is proved of
drawings in general does not depend on it: of the functions it takes no more than that the sine is odd and
the cosine even. -/

namespace LSystem.Binary64

/-! ## π -/

/-- The partial sum `t / n - t / (k² (n + 2)) + …` of the series of the inverse tangent, where
    `kk = k²`; it ends when the terms vanish. -/
def arctanSeries (kk : Nat) : Nat → Nat → Nat → Int
  | 0, _, _ => 0
  | fuel + 1, t, n =>
    if t = 0 then 0 else (t / n : Nat) - arctanSeries kk fuel (t / kk) (n + 2)

/-- π at precision `p`, up to two units: four times `4 arctan (1/5) - arctan (1/239)`. -/
def piAt (p : Nat) : Nat :=
  let q := p + 16
  let arctan (k : Nat) : Int := arctanSeries (k * k) q (twoTo q / k) 1
  (4 * (4 * arctan 5 - arctan 239)).toNat / twoTo 16

/-! ## The series -/

/-- `t - t x² / ((n + 1) (n + 2)) + …` at precision `p`, where `xx = x²`: the sine of `x` from
    `t = x`, `n = 1` and its cosine from `t = 1`, `n = 0`. -/
def circularSeries (p xx : Nat) : Nat → Nat → Nat → Int
  | 0, _, _ => 0
  | fuel + 1, t, n =>
    if t = 0 then 0
    else (t : Int) - circularSeries p xx fuel (t * xx / twoTo p / ((n + 1) * (n + 2))) (n + 2)

/-- Sine and cosine of `m · 2 ^ e` at precision `p`, each up to `4 p + 16` units. The precision is
    taken large enough for the angle to be a whole number of units. -/
def circularAt (p m : Nat) (e : Int) : Int × Int :=
  let angle := m * twoTo (e + p).toNat
  let spare := angle.log2 + 4 - p
  let quarter := piAt (p + spare) / 2
  let wide := angle * twoTo spare
  let k := (2 * wide + quarter) / (2 * quarter)
  let rest : Int := ((wide : Int) - k * quarter) / twoTo spare
  let x := rest.natAbs
  let xx := x * x / twoTo p
  let s := circularSeries p xx p x 1
  let s := if rest < 0 then -s else s
  let c := circularSeries p xx p (twoTo p) 0
  match k % 4 with
  | 0 => (s, c)
  | 1 => (c, -s)
  | 2 => (-s, -c)
  | _ => (-c, s)

/-! ## Rounding -/

/-- The float nearest to `n / 2 ^ p`. -/
def nearestUnits (p : Nat) (n : Int) : Float := nearest (n < 0) n.natAbs (twoTo p)

/-- The float to which all of `[n - slack, n + slack]` rounds, if there is only one. -/
def settled? (p slack : Nat) (n : Int) : Option Float :=
  let low := nearestUnits p (n - slack)
  let high := nearestUnits p (n + slack)
  if low.toBits = high.toBits then some low else none

/-- Sine and cosine of `m · 2 ^ e`, raising the precision until both are settled. -/
def circular (m : Nat) (e : Int) : Nat → Nat → Float × Float
  | 0, p => let (s, c) := circularAt p m e; (nearestUnits p s, nearestUnits p c)
  | tries + 1, p =>
    let (s, c) := circularAt p m e
    match settled? p (4 * p + 16) s, settled? p (4 * p + 16) c with
    | some s, some c => (s, c)
    | _, _ => circular m e tries (2 * p)

/-- Sine and cosine of a float, each correctly rounded; an angle that is not finite has neither. -/
def sineCosine (x : Float) : Float × Float :=
  match decode x with
  | .finite negative 0 _ => (nearest negative 0 1, ofNat 1)
  | .finite negative m e =>
    let (s, c) := circular m e 5 (192 + (-e).toNat)
    (if negative then -s else s, c)
  | _ => (0.0 / 0.0, 0.0 / 0.0)

end LSystem.Binary64
