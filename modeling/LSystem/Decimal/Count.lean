import LSystem.Power
set_option autoImplicit false

/-! # Reading counts

A count is written in decimal digits, with a plus sign in front of them or without, and leading zeros
do not matter. It has to fit 64 bits: larger numbers are refused, never cut down. -/

namespace LSystem.Decimal

/-- The number that some characters write, when they are decimal digits and there is one at least. -/
def digits? (s : List Char) : Option Nat :=
  if s.isEmpty || !s.all Char.isDigit then none else some (Nat.ofDigitChars 10 s 0)

/-- The count that a text writes. -/
def count? (text : String) : Option Nat :=
  let number := match text.toList with
    | '+' :: s => digits? s
    | s => digits? s
  number.filter (· < twoTo 64)

end LSystem.Decimal
