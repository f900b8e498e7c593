import LSystem.Power
set_option autoImplicit false

/-! # The numerical order of floats

Read as a sign and a magnitude, the bits of a float are an integer that grows with the number it
stands for, from the least infinity to the greatest; both zeros have rank 0 and NaN has none. So the
comparisons of IEEE 754 are comparisons of ranks, and choosing the lesser or the greater of two
floats is choosing by rank. Where one of two floats is NaN the other one is chosen. -/

namespace LSystem.Binary64

/-- The place of a float in the numerical order. -/
def rank (x : Float) : Option Int :=
  let bits := x.toBits.toNat
  let magnitude : Nat := bits % twoTo 63
  if magnitude > 2047 * twoTo 52 then none
  else if bits < twoTo 63 then some magnitude
  else some (-magnitude)

/-- `a ≤ b` as numbers; false when one is NaN. -/
def atMost (a b : Float) : Bool :=
  match rank a, rank b with
  | some i, some j => i ≤ j
  | _, _ => false

/-- Equal as numbers; false when one is NaN. -/
def same (a b : Float) : Bool :=
  match rank a, rank b with
  | some i, some j => i == j
  | _, _ => false

/-- The lesser of two floats, or the other one when one is NaN. -/
def lesser (a b : Float) : Float :=
  match rank a, rank b with
  | none, _ => b
  | _, none => a
  | some i, some j => if j < i then b else a

/-- The greater of two floats, or the other one when one is NaN. -/
def greater (a b : Float) : Float :=
  match rank a, rank b with
  | none, _ => b
  | _, none => a
  | some i, some j => if i < j then b else a

theorem rank_lesser (a b : Float) :
    rank (lesser a b) = match rank a, rank b with
      | none, r => r
      | r, none => r
      | some i, some j => some (min i j) := by
  unfold lesser
  cases ha : rank a with
  | none => cases hb : rank b <;> simp
  | some i =>
    cases hb : rank b with
    | none => simpa using ha
    | some j => by_cases h : j < i <;> simp [h, ha, hb] <;> omega

theorem rank_greater (a b : Float) :
    rank (greater a b) = match rank a, rank b with
      | none, r => r
      | r, none => r
      | some i, some j => some (max i j) := by
  unfold greater
  cases ha : rank a with
  | none => cases hb : rank b <;> simp
  | some i =>
    cases hb : rank b with
    | none => simpa using ha
    | some j => by_cases h : i < j <;> simp [h, ha, hb] <;> omega

end LSystem.Binary64
