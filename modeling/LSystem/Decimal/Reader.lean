import LSystem.Decimal.Basic
set_option autoImplicit false

/-! # Reading decimals

A decimal is digits with at most one point among, in front of or behind them, at least one digit in
all, and possibly a power of ten behind the letter `e`. Its float is the nearest one. -/

namespace LSystem.Decimal

/-- The power of ten behind the letter `e`: digits with an optional sign, and nothing else. -/
def power? (s : List Char) : Option Int :=
  let (negative, ds) := match s with
    | '-' :: s => (true, s)
    | '+' :: s => (false, s)
    | s => (false, s)
  if ds.isEmpty || !ds.all Char.isDigit then none
  else
    let n : Int := Nat.ofDigitChars 10 ds 0
    some (if negative then -n else n)

/-- A decimal without sign. -/
def read? (s : List Char) : Option Decimal := do
  let whole := s.takeWhile Char.isDigit
  let s := s.dropWhile Char.isDigit
  let (fraction, s) := match s with
    | '.' :: s => (s.takeWhile Char.isDigit, s.dropWhile Char.isDigit)
    | s => ([], s)
  let power ← match s with
    | [] => some 0
    | 'e' :: s => power? s
    | 'E' :: s => power? s
    | _ => none
  let digits := whole ++ fraction
  if digits.isEmpty then none
  else some ⟨Nat.ofDigitChars 10 digits 0, power - fraction.length⟩

/-- The float nearest to a decimal that may have a minus sign in front. -/
def readFloat? : List Char → Option Float
  | '-' :: s => (read? s).map (toFloat true)
  | s => (read? s).map (toFloat false)

end LSystem.Decimal
