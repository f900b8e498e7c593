import LSystem.Vector
import Mathlib.Algebra.Ring.Defs
import Mathlib.Tactic.LinearCombination
import Mathlib.Tactic.Ring
set_option autoImplicit false

/-! # Rotations that keep lengths

Where coordinates are added and multiplied exactly, a rotation whose sine and cosine have squares that
add up to one changes no length. These rotations form a commutative group, in which the rotation the other
way about is the inverse, so that how far something has been turned by several of them is told by one
power. -/

namespace LSystem

/-- The square of the length of a vector. -/
def Vec.squaredLength {α : Type} [Add α] [Mul α] (v : Vec α) : α := v.x * v.x + v.y * v.y

/-- A rotation whose sine and cosine are coordinates of a point of the unit circle. -/
@[ext]
structure PureRotation (α : Type) [CommRing α] extends Rotation α where
  onCircle : sine ^ 2 + cosine ^ 2 = 1

namespace PureRotation

variable {α : Type} [CommRing α]

/-! ## The group -/

instance : One (PureRotation α) := ⟨⟨⟨0, 1⟩, by ring⟩⟩

instance : Mul (PureRotation α) where
  mul r t :=
    { sine := r.sine * t.cosine + r.cosine * t.sine
      cosine := r.cosine * t.cosine - r.sine * t.sine
      onCircle := by
        linear_combination (t.sine ^ 2 + t.cosine ^ 2) * r.onCircle + t.onCircle }

instance : Inv (PureRotation α) where
  inv r := ⟨⟨-r.sine, r.cosine⟩, by rw [neg_sq, r.onCircle]⟩

@[simp] theorem one_sine : (1 : PureRotation α).sine = 0 := rfl

@[simp] theorem one_cosine : (1 : PureRotation α).cosine = 1 := rfl

@[simp] theorem mul_sine (r t : PureRotation α) :
    (r * t).sine = r.sine * t.cosine + r.cosine * t.sine := rfl

@[simp] theorem mul_cosine (r t : PureRotation α) :
    (r * t).cosine = r.cosine * t.cosine - r.sine * t.sine := rfl

@[simp] theorem inv_sine (r : PureRotation α) : r⁻¹.sine = -r.sine := rfl

@[simp] theorem inv_cosine (r : PureRotation α) : r⁻¹.cosine = r.cosine := rfl

instance : CommGroup (PureRotation α) where
  mul_assoc r t u := by ext <;> simp only [mul_sine, mul_cosine] <;> ring
  one_mul r := by ext <;> simp
  mul_one r := by ext <;> simp
  inv_mul_cancel r := by
    ext
    · simp only [mul_sine, inv_sine, inv_cosine, one_sine]
      ring
    · simp only [mul_cosine, inv_sine, inv_cosine, one_cosine]
      linear_combination r.onCircle
  mul_comm r t := by ext <;> simp only [mul_sine, mul_cosine] <;> ring

/-! ## Turning vectors -/

/-- The vector turned by a rotation that keeps its length. -/
def turn (r : PureRotation α) (v : Vec α) : Vec α := v.rotate r.toRotation

@[simp] theorem one_turn (v : Vec α) : (1 : PureRotation α).turn v = v := by
  simp [turn, Vec.rotate]

/-- To turn by two rotations one after the other is to turn by their product. -/
theorem mul_turn (r t : PureRotation α) (v : Vec α) : (r * t).turn v = r.turn (t.turn v) := by
  simp only [turn, Vec.rotate, mul_sine, mul_cosine, Vec.mk.injEq]
  constructor <;> ring

theorem squaredLength_turn (r : PureRotation α) (v : Vec α) :
    (r.turn v).squaredLength = v.squaredLength := by
  simp only [turn, Vec.rotate, Vec.squaredLength]
  linear_combination (v.x ^ 2 + v.y ^ 2) * r.onCircle

/-- Turning back undoes a turn. -/
theorem inv_turn_turn (r : PureRotation α) (v : Vec α) : r⁻¹.turn (r.turn v) = v := by
  rw [← mul_turn, inv_mul_cancel, one_turn]

end PureRotation

end LSystem
