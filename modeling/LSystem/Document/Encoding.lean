import LSystem.Json.Basic
import LSystem.Drawing
set_option autoImplicit false

/-! # Domain values as JSON -/

namespace LSystem

/-- A vector as an object with `x` and `y`. -/
def Vec.toJson (v : Point) : Json := .object [("x", .float v.x), ("y", .float v.y)]

/-- A box as an object with `min` and `max`. -/
def Bounds.toJson (b : Bounds Float) : Json :=
  .object [("min", b.min.toJson), ("max", b.max.toJson)]

/-- A turtle as an object with `pos` and `dir`. -/
def Turtle.toJson (t : Turtle Float) : Json :=
  .object [("pos", t.position.toJson), ("dir", t.heading.toJson)]

/-- A segment as an object with `from` and `to`. -/
def Segment.toJson (s : Segment Float) : Json :=
  .object [("from", s.start.toJson), ("to", s.stop.toJson)]

/-- A drawing as an object with `points` and `bounds`. -/
def Geometry.toJson (g : Geometry Float) : Json :=
  .object [("points", .array (g.points.map Vec.toJson)), ("bounds", g.bounds.toJson)]

/-- A grammar as an object that holds its productions in the order of their symbols. -/
def Grammar.toJson (g : Grammar) : Json :=
  let production (p : Symbol × Word) : String × Json :=
    (String.singleton p.1, .string (String.ofList p.2))
  .object [("rules", .object (g.toList.map production))]

/-- A system as an object with `axiom`, `grammar` and `theta`. -/
def System.toJson (s : System) : Json :=
  .object [("axiom", .string (String.ofList s.initiator)), ("grammar", Grammar.toJson s.grammar),
    ("theta", .float s.angle)]

end LSystem
