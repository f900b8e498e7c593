import LSystem.Vector
set_option autoImplicit false

/-! # The turtle: a position and a heading -/

namespace LSystem

/-- The turtle stands at `position` and looks along `heading`. -/
structure Turtle (α : Type) where
  position : Vec α
  heading : Vec α
  deriving DecidableEq

namespace Turtle

variable {α : Type}

/-- At the origin, looking along the first axis. -/
def start [OfNat α 0] [OfNat α 1] : Turtle α := ⟨0, ⟨1, 0⟩⟩

/-- One step along the heading. -/
def step [Add α] (t : Turtle α) : Turtle α := ⟨t.position + t.heading, t.heading⟩

/-- A turn on the spot. -/
def turn [Add α] [Sub α] [Mul α] (t : Turtle α) (r : Rotation α) : Turtle α :=
  ⟨t.position, t.heading.rotate r⟩

end Turtle

end LSystem
