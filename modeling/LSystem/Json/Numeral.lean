import LSystem.Decimal.Shortest
set_option autoImplicit false

/-! # JSON numerals

A numeral keeps the digits in front of and behind its point, and its power of ten if it has one. A
float is written by its shortest digits, positionally while its first digit stands between the
fifth place behind the point and the sixteenth in front of it, and with a power of ten otherwise.

Reading goes the quick way: the digits are gathered while they fit 64 bits, and the result is found
by one multiplication or division by a power of ten, itself a float. Numbers of up to 15 digits and
moderate size come out exactly rounded; others can be off in the last bit. Of digits that no longer
fit, those in front of the point still count as places and those behind it are dropped. -/

namespace LSystem.Json

open Binary64

/-- A JSON number as it is written: `± whole . fraction e exponent`. -/
structure Numeral where
  negative : Bool
  whole : List Char
  fraction : List Char
  exponent : Option Int
  deriving DecidableEq, Repr

namespace Numeral

/-! ## Writing -/

/-- A whole number. -/
def ofNat (n : Nat) : Numeral := ⟨false, Nat.toDigits 10 n, [], none⟩

/-- The layout of digits `ds` that count units of `10 ^ e`. -/
def layOut (negative : Bool) (ds : List Char) (e : Int) : Numeral :=
  let lead : Int := ds.length + e - 1
  if -5 ≤ lead ∧ lead < 16 then
    if 0 ≤ e then ⟨negative, ds ++ List.replicate e.toNat '0', ['0'], none⟩
    else if 0 ≤ lead then
      ⟨negative, ds.take (lead + 1).toNat, ds.drop (lead + 1).toNat, none⟩
    else ⟨negative, ['0'], List.replicate (-lead - 1).toNat '0' ++ ds, none⟩
  else ⟨negative, ds.take 1, ds.drop 1, some lead⟩

/-- The numeral of a float; a float that is not finite has none. -/
def ofFloat? (x : Float) : Option Numeral :=
  match decode x with
  | .finite negative 0 _ => some ⟨negative, ['0'], ['0'], none⟩
  | .finite negative m e =>
    let d := Decimal.shortest m e
    some (layOut negative (Nat.toDigits 10 d.digits) d.exponent)
  | _ => none

/-- The characters of a numeral. -/
def chars (n : Numeral) : List Char :=
  (if n.negative then ['-'] else []) ++ n.whole
    ++ (if n.fraction.isEmpty then [] else '.' :: n.fraction)
    ++ match n.exponent with
      | none => []
      | some e => 'e' :: (if e < 0 then '-' else '+') :: Nat.toDigits 10 e.natAbs

/-! ## Reading -/

/-- The value of a digit. -/
def digit (c : Char) : Nat := c.toNat - '0'.toNat

/-- Whether a significand with one more digit still fits 64 bits. -/
def fits (significand : Nat) (c : Char) : Bool := significand * 10 + digit c < twoTo 64

/-- Gather the digits in front of the point; each that no longer fits raises the power of ten. -/
def gatherWhole : Nat → List Char → Nat × Int
  | significand, [] => (significand, 0)
  | significand, c :: cs =>
    if fits significand c then gatherWhole (significand * 10 + digit c) cs
    else (significand, cs.length + 1)

/-- Gather the digits behind the point, each lowering the power of ten, up to the first that does
    not fit. -/
def gatherFraction : Nat → Int → List Char → Nat × Int
  | significand, power, [] => (significand, power)
  | significand, power, c :: cs =>
    if fits significand c then gatherFraction (significand * 10 + digit c) (power - 1) cs
    else (significand, power)

/-- `f · 10 ^ power` by one product or quotient with a power of ten up to `10 ^ 308`, after as many
    divisions by `10 ^ 308` as it takes to get there; none when it overflows. -/
def scaled (f : Float) (power : Int) : Nat → Option Float
  | 0 => some 0.0
  | fuel + 1 =>
    if -308 ≤ power ∧ power ≤ 308 then
      let ten := Binary64.ofNat (tenTo power.natAbs)
      if 0 ≤ power then
        let r := f * ten
        if isFinite r then some r else none
      else some (f / ten)
    else if f == 0.0 then some f
    else if 0 ≤ power then none
    else scaled (f / Binary64.ofNat (tenTo 308)) (power + 308) fuel

/-- The float that a numeral is read as; none when it is too large. A power of ten beyond 32 bits
    decides by itself: below it the number is zero, above it too large unless its digits are zero. -/
def toFloat? (n : Numeral) : Option Float :=
  let (significand, excess) := gatherWhole 0 n.whole
  let (significand, power) := gatherFraction significand excess n.fraction
  let exponent := n.exponent.getD 0
  let magnitude :=
    if twoTo 31 ≤ exponent.natAbs then
      if significand ≠ 0 ∧ 0 < exponent then none else some 0.0
    else scaled (Binary64.ofNat significand) (power + exponent) 4
  magnitude.map fun f => if n.negative then -f else f

end Numeral

end LSystem.Json
