set_option autoImplicit false

/-! # What can go wrong, and how it is worded -/

namespace LSystem

/-- Why a system could not be found, grown or drawn. -/
inductive Failure where
  /-- A `]` at which no turtle is saved. -/
  | unmatchedBracket (position : Nat)
  /-- A definition whose rule key is not one character. -/
  | invalidKey (system key : String)
  /-- Neither a definition nor a preset has the name. -/
  | unknownSystem (name : String)
  /-- A generation that would hold more symbols than the limit. -/
  | symbolLimit (generation symbols limit : Nat)
  deriving DecidableEq, Repr

/-- The text shown for a failure. -/
def Failure.message : Failure → String
  | .unmatchedBracket position =>
    s!"unbalanced bracket: ']' at position {position} has no matching '['"
  | .invalidKey system key => s!"system '{system}': rule key '{key}' must be exactly one character"
  | .unknownSystem name => s!"unknown system: {name}"
  | .symbolLimit generation symbols limit =>
    s!"generation {generation} would hold {symbols} symbols (limit {limit})"

end LSystem
