import LSystem.Path
set_option autoImplicit false

/-! # Commands

What can be asked for on the command line, and what can be wrong with the way it is asked. -/

namespace LSystem

/-- What to do. Limits and output files that are not given are up to the settings. -/
inductive Command where
  /-- List the presets and the definitions. -/
  | list
  /-- Print the word of a generation. -/
  | expand (system : String) (iterations : Nat) (limit : Option Nat)
  /-- Write the drawing of a generation, or with `every` those of all generations up to it. -/
  | generate (system : String) (iterations : Nat) (limit : Option Nat) (output : Option Path)
      (every : Bool)
  deriving DecidableEq, Repr

/-- A command together with the file that holds the definitions. -/
structure Invocation where
  library : Path
  command : Command
  deriving DecidableEq, Repr

/-- Why some arguments are no invocation. -/
inductive Misuse where
  | helpWanted
  | missingCommand
  | unknownCommand (word : String)
  | unknownOption (argument : String)
  | unexpected (argument : String)
  | repeatedOption (name : String)
  | missingValue (name : String)
  | badValue (name value : String)
  | missingOption (name : String)
  deriving DecidableEq, Repr

/-- What the command line takes. -/
def Invocation.synopsis : String :=
  "lsystem [-c FILE] list\n" ++
  "lsystem [-c FILE] expand -s SYSTEM [-i N] [--max-symbols N]\n" ++
  "lsystem [-c FILE] generate -s SYSTEM [-i N] [-o FILE] [--all-generations] [--max-symbols N]\n"

/-- The text shown for a misuse. -/
def Misuse.message : Misuse → String
  | helpWanted => Invocation.synopsis
  | missingCommand => "a command is missing"
  | unknownCommand word => s!"there is no command {word}"
  | unknownOption argument => s!"there is no option {argument}"
  | unexpected argument => s!"{argument} is not expected here"
  | repeatedOption name => s!"--{name} is given twice"
  | missingValue name => s!"--{name} needs a value"
  | badValue name value => s!"{value} is no value for --{name}"
  | missingOption name => s!"--{name} is missing"

end LSystem
