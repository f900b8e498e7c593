import LSystem.Binary64.Basic
set_option autoImplicit false

/-! # Floats with a fixed number of decimal places

The exact value of a float is rounded to a whole number of units of the last place, a half going to
the even neighbour. The sign is that of the float, also where nothing but zeros is left of it. -/

namespace LSystem.Decimal

open Binary64

/-- `units` in units of `10 ^ (-places)`, with a point in front of the last `places` digits. -/
def placed (places units : Nat) : List Char :=
  let digits := Nat.toDigits 10 units
  let padded := List.replicate (places + 1 - digits.length) '0' ++ digits
  let whole := padded.take (padded.length - places)
  if places = 0 then whole else whole ++ '.' :: padded.drop (padded.length - places)

/-- A float written with `places` decimal places. -/
def fixed (places : Nat) (x : Float) : String :=
  let sign (negative : Bool) : String := if negative then "-" else ""
  match decode x with
  | .nan => "NaN"
  | .infinite negative => sign negative ++ "inf"
  | .finite negative m e =>
    let (num, den) := scaleDown m 1 (-e)
    sign negative ++ String.ofList (placed places (roundQuotient (num * tenTo places) den))

end LSystem.Decimal
