import LSystem.Vector
set_option autoImplicit false

/-! # Bounds: the least upright box around some points

A box is grown one point at a time, coordinate by coordinate, by the lesser and the greater of two
numbers. Of floats these pass over NaN, so a point that has a NaN coordinate still counts with its
other one. -/

namespace LSystem

/-- What a box needs of coordinates: the lesser and the greater of two. -/
class Extremes (α : Type) where
  lesser : α → α → α
  greater : α → α → α

instance : Extremes Float := ⟨Binary64.lesser, Binary64.greater⟩

/-- The box between two corners. -/
structure Bounds (α : Type) where
  min : Vec α
  max : Vec α
  deriving DecidableEq

namespace Bounds

variable {α : Type}

/-- The box that holds the origin alone. -/
def atOrigin [OfNat α 0] : Bounds α := ⟨0, 0⟩

/-- The box grown so far that it reaches `p`. -/
def enclose [Extremes α] (b : Bounds α) (p : Vec α) : Bounds α :=
  { min := ⟨Extremes.lesser b.min.x p.x, Extremes.lesser b.min.y p.y⟩
    max := ⟨Extremes.greater b.max.x p.x, Extremes.greater b.max.y p.y⟩ }

/-! ## Floats -/

/-- Whether a point lies in the box, its sides included. -/
def contains (b : Bounds Float) (p : Point) : Bool :=
  Binary64.atMost b.min.x p.x && Binary64.atMost p.x b.max.x
    && Binary64.atMost b.min.y p.y && Binary64.atMost p.y b.max.y

/-- The middle of the box: half the sum of its corners. -/
def center (b : Bounds Float) : Point := (b.min + b.max).scale 0.5

/-- The extent along the first axis. -/
def width (b : Bounds Float) : Float := b.max.x - b.min.x

/-- The extent along the second axis. -/
def height (b : Bounds Float) : Float := b.max.y - b.min.y

end Bounds

end LSystem
