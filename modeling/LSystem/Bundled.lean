import LSystem.Definition
set_option autoImplicit false

/-! # The library that comes with the program

Three systems beyond the presets: Koch's island, Hilbert's curve and a bush. They are kept as the text of
a library file, line by line, beside the definitions that stand in it. -/

namespace LSystem

/-- The text of the library file. -/
def bundledText : String :=
  "\n".intercalate
    [ "# Extra L-systems on top of the built-in presets.",
      "# Drawing symbols: A B C. Turns: + -. Branches: [ ]. Anything else is ignored.",
      "systems:",
      "  - name: koch_island",
      "    axiom: \"A-A-A-A\"",
      "    rules:",
      "      A: \"A-A+A+AA-A-A+A\"",
      "    angle_degrees: 90",
      "",
      "  # X and Y only steer the rewrite; C draws",
      "  - name: hilbert",
      "    axiom: \"X\"",
      "    rules:",
      "      X: \"-YC+XCX+CY-\"",
      "      Y: \"+XC-YCY-CX+\"",
      "    angle_degrees: 90",
      "",
      "  - name: bush",
      "    axiom: \"A\"",
      "    rules:",
      "      A: \"B[+A][-A]BA\"",
      "      B: \"BB\"",
      "    angle_degrees: 25.7",
      "" ]

/-- The definitions of the library file. -/
def bundled : Library :=
  [ ⟨"koch_island", "A-A-A-A", .ofList [("A", "A-A+A+AA-A-A+A")], 90⟩,
    ⟨"hilbert", "X", .ofList [("X", "-YC+XCX+CY-"), ("Y", "+XC-YCY-CX+")], 90⟩,
    ⟨"bush", "A", .ofList [("A", "B[+A][-A]BA"), ("B", "BB")], 25.7⟩ ]

end LSystem
