import LSystem.Catalogue
import LSystem.Failure
set_option autoImplicit false

/-! # Definitions and libraries

A definition is a system as its author writes it: a name, texts, rules whose keys are any texts, and
an angle in degrees. It stands for a system only when each of its keys is a single character. A
library is a list of definitions; it gives a name to its first definition of that name, and leaves
names that it does not define to the catalogue. -/

namespace LSystem

/-- A system as it is written down. -/
structure Definition where
  name : String
  initiator : String
  rules : Table String String
  degrees : Float
  deriving DecidableEq

namespace Definition

/-- The symbol that a rule key stands for: its only character. -/
def keySymbol? (key : String) : Option Symbol :=
  match key.toList with
  | [c] => some c
  | _ => none

/-- Add rules to a grammar, failing with the first key that is not a symbol. -/
def addRules (system : String) : Grammar → List (String × String) → Except Failure Grammar
  | g, [] => .ok g
  | g, (key, replacement) :: rules =>
    match keySymbol? key with
    | some c => addRules system (g.insert c replacement.toList) rules
    | none => .error (.invalidKey system key)

/-- The system of a definition; the keys are tried in their order. -/
def system (d : Definition) : Except Failure System :=
  (addRules d.name .empty d.rules.toList).map fun grammar =>
    ⟨d.initiator.toList, grammar, Binary64.radians d.degrees⟩

end Definition

/-- Definitions in the order in which they were written. -/
abbrev Library := List Definition

namespace Library

/-- The first definition of a name. -/
def named? (library : Library) (name : String) : Option Definition :=
  library.find? (·.name == name)

/-- The system of a name: that of its definition, else that of its preset. -/
def resolve (library : Library) (name : String) : Except Failure System :=
  match library.named? name with
  | some d => d.system
  | none =>
    match Preset.named? name with
    | some p => .ok p.system
    | none => .error (.unknownSystem name)

end Library

end LSystem
