import LSystem.Text.CharSet
set_option autoImplicit false

/-! # White space

The characters with the property `White_Space` of the Unicode character database: the controls from
the tab to the carriage return, the space, the next line, and the spaces and separators of the
General Punctuation block and a few others. -/

namespace LSystem.CharSet

/-- White space. -/
def whiteSpace : CharSet :=
  ⟨[9, 5, 18, 1, 100, 1, 26, 1, 5599, 1, 2431, 11, 29, 2, 5, 1, 47, 1, 4000, 1]⟩

end LSystem.CharSet
