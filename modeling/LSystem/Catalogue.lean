import LSystem.Grammar
import LSystem.Binary64.Basic
set_option autoImplicit false

/-! # The catalogue of presets -/

namespace LSystem

/-- A system that is always at hand. -/
structure Preset where
  name : String
  initiator : String
  productions : List (Symbol × String)
  angle : Float

namespace Preset

/-- The productions of a preset as a grammar. -/
def grammar (p : Preset) : Grammar :=
  .ofList (p.productions.map fun (symbol, replacement) => (symbol, replacement.toList))

/-- The system that a preset stands for. -/
def system (p : Preset) : System := ⟨p.initiator.toList, p.grammar, p.angle⟩

end Preset

open Binary64 (turnOver)

/-- The presets: the binary tree, two Sierpinski triangles, the Heighway dragon, the crystal, the
    Koch curve and the flowsnake. -/
def catalogue : List Preset :=
  [ ⟨"tree", "A", [('A', "B[+A]-A"), ('B', "BB")], turnOver 8.0⟩,
    ⟨"sierpinski_regular", "A-B-B", [('A', "A-B+A+B-A"), ('B', "BB")], turnOver 3.0⟩,
    ⟨"sierpinski_arrowhead", "A", [('A', "B-A-B"), ('B', "A+B+A")], turnOver 6.0⟩,
    ⟨"dragon", "A", [('A', "A+B"), ('B', "A-B")], turnOver 4.0⟩,
    ⟨"crystal", "A", [('A', "AA-A--A-A")], turnOver 4.0⟩,
    ⟨"snowflake", "A", [('A', "A+A--A+A")], turnOver 6.0⟩,
    ⟨"gosper", "A", [('A', "A-B--B+A++AA+B-"), ('B', "+A-BB--B-A++A+B")], turnOver 6.0⟩ ]

/-- The preset of a name. -/
def Preset.named? (name : String) : Option Preset := catalogue.find? (·.name == name)

end LSystem
