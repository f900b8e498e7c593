import LSystem.Document.Encoding
import LSystem.Run
set_option autoImplicit false

/-! # Documents: what is exported of a run

A drawing document describes one drawn generation of a system, a trace document several in a row.
Both name the system, give the angle of a turn in radians and say when they were made. What is told
of one generation is the same in both: a drawing document holds it among its own members, a trace
document in a list of frames. -/

namespace LSystem

/-- What is told of one generation. -/
structure FrameDocument where
  generation : Nat
  segments : Nat
  bounds : Bounds Float
  points : List Point

/-- One drawn generation of a system. -/
structure GeometryDocument where
  system : String
  angle : Float
  symbols : Nat
  frame : FrameDocument
  generated : String

/-- Several drawn generations of a system. -/
structure TraceDocument where
  system : String
  angle : Float
  frames : List FrameDocument
  generated : String

/-! ## Making documents -/

/-- What is told of a drawing at a generation. -/
def FrameDocument.of (generation : Nat) (g : Geometry Float) : FrameDocument :=
  ⟨generation, g.segmentCount, g.bounds, g.points⟩

/-- The document of a run as it stands. -/
def GeometryDocument.ofRun (name : String) (r : Run) (generated : String) : GeometryDocument :=
  ⟨name, r.system.angle, r.symbols, .of r.generation r.geometry, generated⟩

/-- The document of a trace. -/
def TraceDocument.ofFrames (name : String) (angle : Float) (frames : List Frame)
    (generated : String) : TraceDocument :=
  ⟨name, angle, frames.map fun f => .of f.generation f.geometry, generated⟩

/-! ## Writing documents -/

/-- The members that tell of one generation. -/
def FrameDocument.members (f : FrameDocument) : List (String × Json) :=
  [("generation", .nat f.generation), ("segments", .nat f.segments), ("bounds", f.bounds.toJson),
    ("points", .array (f.points.map Vec.toJson))]

/-- A drawing document as an object. -/
def GeometryDocument.toJson (d : GeometryDocument) : Json :=
  .object ([("system", .string d.system), ("theta", .float d.angle), ("symbols", .nat d.symbols)]
    ++ d.frame.members ++ [("generated", .string d.generated)])

/-- A trace document as an object. -/
def TraceDocument.toJson (d : TraceDocument) : Json :=
  .object [("system", .string d.system), ("theta", .float d.angle),
    ("frames", .array (d.frames.map fun f => .object f.members)),
    ("generated", .string d.generated)]

/-- The text of a drawing document. -/
def GeometryDocument.text (d : GeometryDocument) : String := d.toJson.spread

/-- The text of a trace document. -/
def TraceDocument.text (d : TraceDocument) : String := d.toJson.spread

/-- Either kind of document. -/
inductive Document where
  | geometry (d : GeometryDocument)
  | trace (d : TraceDocument)

/-- The text of a document. -/
def Document.text : Document → String
  | .geometry d => d.text
  | .trace d => d.text

end LSystem
