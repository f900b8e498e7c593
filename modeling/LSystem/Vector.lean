import LSystem.Binary64.Circular
import LSystem.Binary64.Order
import LSystem.Binary64.Root
set_option autoImplicit false

/-! # Vectors of the plane and rotations

The operations on vectors use nothing of their coordinates but sum, difference and product, so they
are defined over any type that has these; the program runs them on floats. A rotation is given by
its sine and cosine, which leaves the angle, and the way its sine and cosine are rounded, to the
one place where a rotation is made of an angle. -/

namespace LSystem

/-- A vector, or the point it leads to from the origin. -/
structure Vec (α : Type) where
  x : α
  y : α
  deriving DecidableEq

/-- A point of the plane with float coordinates. -/
abbrev Point := Vec Float

/-- A rotation about the origin, counterclockwise. -/
structure Rotation (α : Type) where
  sine : α
  cosine : α

namespace Vec

variable {α : Type}

instance [OfNat α 0] : OfNat (Vec α) 0 := ⟨⟨0, 0⟩⟩

instance [OfNat α 0] : Inhabited (Vec α) := ⟨0⟩

instance [Add α] : Add (Vec α) := ⟨fun u v => ⟨u.x + v.x, u.y + v.y⟩⟩

/-- The vector `k` times as long. -/
def scale [Mul α] (v : Vec α) (k : α) : Vec α := ⟨v.x * k, v.y * k⟩

/-- The vector turned by a rotation. -/
def rotate [Add α] [Sub α] [Mul α] (v : Vec α) (r : Rotation α) : Vec α :=
  ⟨r.cosine * v.x - r.sine * v.y, r.sine * v.x + r.cosine * v.y⟩

end Vec

/-! ## Floats -/

/-- The rotation by an angle in radians. -/
def Rotation.ofAngle (angle : Float) : Rotation Float :=
  let (s, c) := Binary64.sineCosine angle
  ⟨s, c⟩

/-- The vector of length one in the direction of an angle. -/
def Vec.unit (angle : Float) : Point :=
  let r := Rotation.ofAngle angle
  ⟨r.cosine, r.sine⟩

/-- The length of a vector. -/
def Vec.length (v : Point) : Float := Binary64.hypotenuse v.x v.y

/-- Equal coordinates, as numbers. -/
def Vec.same (u v : Point) : Bool := Binary64.same u.x v.x && Binary64.same u.y v.y

end LSystem
