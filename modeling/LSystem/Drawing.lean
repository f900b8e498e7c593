import LSystem.Grammar
import LSystem.Turtle
import LSystem.Bounds
import LSystem.Failure
set_option autoImplicit false

/-! # Drawing a word

The turtle reads a word symbol by symbol. `A`, `B` and `C` draw a step, `+` and `-` turn, `[` saves
the turtle and `]` goes back to the turtle saved last; every other symbol is passed over. What a
walk leaves behind are its segments and the box around the origin and all points reached. A walk
fails only at a `]` for which nothing is saved; turtles still saved at the end do no harm.

The walk is defined over any coordinates with sum, difference and product, and takes its two turns
as rotations, so a fact about all walks need not speak of rounding. -/

namespace LSystem

/-! ## Symbols -/

/-- What the turtle does at a symbol. -/
inductive Action where
  | draw
  | left
  | right
  | save
  | restore
  | pass
  deriving DecidableEq, Repr

/-- The meaning of a symbol. -/
def Action.ofSymbol : Symbol → Action
  | 'A' | 'B' | 'C' => .draw
  | '+' => .left
  | '-' => .right
  | '[' => .save
  | ']' => .restore
  | _ => .pass

/-! ## Segments and geometries -/

/-- A drawn step. -/
structure Segment (α : Type) where
  start : Vec α
  stop : Vec α
  deriving DecidableEq

/-- The points of a drawing, two for each segment, and the box around it. -/
structure Geometry (α : Type) where
  points : List (Vec α)
  bounds : Bounds α
  deriving DecidableEq

namespace Geometry

variable {α : Type}

/-- Nothing drawn. -/
def blank [OfNat α 0] : Geometry α := ⟨[], .atOrigin⟩

/-- The points taken two by two; a last single point is left out. -/
def pairUp : List (Vec α) → List (Segment α)
  | p :: q :: rest => ⟨p, q⟩ :: pairUp rest
  | _ => []

/-- The segments of a drawing. -/
def segments (g : Geometry α) : List (Segment α) := pairUp g.points

/-- The number of segments. -/
def segmentCount (g : Geometry α) : Nat := g.points.length / 2

end Geometry

/-! ## Walks -/

/-- A walk under way: the turtle, the saved turtles (last saved first), the box so far and the
    segments drawn (newest first). -/
structure Walk (α : Type) where
  turtle : Turtle α
  saved : List (Turtle α)
  bounds : Bounds α
  drawn : List (Segment α)

namespace Walk

/-- What a walk leaves behind. -/
def geometry {α : Type} (w : Walk α) : Geometry α :=
  ⟨w.drawn.reverse.flatMap fun s => [s.start, s.stop], w.bounds⟩

variable {α : Type} [OfNat α 0] [OfNat α 1] [Add α] [Sub α] [Mul α] [Extremes α]

/-- Nothing walked yet. -/
def start : Walk α := ⟨.start, [], .atOrigin, []⟩

/-- The walk after one more action; none when there is no turtle to go back to. -/
def act (left right : Rotation α) (w : Walk α) : Action → Option (Walk α)
  | .draw =>
    let moved := w.turtle.step
    some { w with
      turtle := moved
      bounds := w.bounds.enclose moved.position
      drawn := ⟨w.turtle.position, moved.position⟩ :: w.drawn }
  | .left => some { w with turtle := w.turtle.turn left }
  | .right => some { w with turtle := w.turtle.turn right }
  | .save => some { w with saved := w.turtle :: w.saved }
  | .restore =>
    match w.saved with
    | [] => none
    | t :: ts => some { w with turtle := t, saved := ts }
  | .pass => some w

/-- The walk along a word whose first symbol stands at the given position. -/
def follow (left right : Rotation α) : Walk α → Nat → Word → Except Failure (Walk α)
  | w, _, [] => .ok w
  | w, position, c :: cs =>
    match w.act left right (.ofSymbol c) with
    | some next => next.follow left right (position + 1) cs
    | none => .error (.unmatchedBracket position)

/-- The drawing of a word by a turtle that turns by `left` at `+` and by `right` at `-`. -/
def draw (left right : Rotation α) (word : Word) : Except Failure (Geometry α) :=
  (follow left right start 0 word).map geometry

end Walk

/-- The drawing of a word with turns by `angle` at `+` and by its opposite at `-`. -/
def Word.draw (word : Word) (angle : Float) : Except Failure (Geometry Float) :=
  Walk.draw (Rotation.ofAngle angle) (Rotation.ofAngle (-angle)) word

end LSystem
