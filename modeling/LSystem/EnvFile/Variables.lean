set_option autoImplicit false

/-! # Variables

A list of variables gives a name to the first value that it lists under it. So what is set first
stays set: appending a value to the list only matters for a name that has none yet. Any text can stand
in the list, but a process cannot hold one with a character of code 0, which ends a text there. -/

namespace LSystem

/-- Names and values, of which the first under a name counts. -/
abbrev Variables := List (String × String)

namespace Variables

/-- The value of a variable. -/
def get? (vars : Variables) (name : String) : Option String := vars.lookup name

/-- Whether a process can hold the variables. -/
def areHoldable (vars : Variables) : Bool :=
  vars.all fun (name, _) => !((vars.get? name).getD "").toList.contains '\x00'

theorem get?_append (vars more : Variables) (name : String) :
    (vars ++ more : Variables).get? name = (vars.get? name).or (more.get? name) := by
  simp only [get?, List.lookup_append]

end Variables

end LSystem
