set_option autoImplicit false

/-! # Sets of characters

The sets of characters that text is sorted by are long rows of neighbours with gaps between them. A
set is kept as the lengths of its stretches in the order of the code points: the first stretch lies
outside of it, the next one inside, and so on in turns. Behind the last stretch the turns end with one
that never does. -/

namespace LSystem

/-- A set of characters, as the lengths of the stretches outside and inside of it in turns. -/
structure CharSet where
  stretches : List Nat

namespace CharSet

/-- Whether a point lies inside, when the first stretch does as `inside` says. -/
def covers : Bool → List Nat → Nat → Bool
  | inside, [], _ => inside
  | inside, n :: ns, point => if point < n then inside else covers (!inside) ns (point - n)

/-- Membership. -/
def contains (s : CharSet) (c : Char) : Bool := covers false s.stretches c.toNat

end CharSet

end LSystem
