import LSystem.Command.Option
set_option autoImplicit false

/-! # Reading the command line

The file of definitions is named in front of the command, everything else behind it. -/

namespace LSystem

open Switch (gather gatherAll)

namespace Command

/-- The name of a system. -/
def systemSwitch : Switch := ⟨"system", some 's', .text⟩

/-- The generation that is asked for. -/
def iterationsSwitch : Switch := ⟨"iterations", some 'i', .count⟩

/-- The most symbols of a generation. -/
def limitSwitch : Switch := ⟨"max-symbols", none, .count⟩

/-- The file to write. -/
def outputSwitch : Switch := ⟨"output", some 'o', .path⟩

/-- Whether all generations are drawn. -/
def everySwitch : Switch := ⟨"all-generations", none, .nothing⟩

/-- The generation that is printed when none is asked for. -/
def expandIterations : Nat := 4

/-- The generation that is drawn when none is asked for. -/
def generateIterations : Nat := 8

/-- The command that a word and the arguments behind it ask for. -/
def ofArguments (word : String) (arguments : List String) : Except Misuse Command := do
  match word with
  | "list" =>
    let _ ← gatherAll [] arguments
    return .list
  | "expand" =>
    let given ← gatherAll [systemSwitch, iterationsSwitch, limitSwitch] arguments
    return .expand (← given.required "system")
      ((given.count? "iterations").getD expandIterations) (given.count? "max-symbols")
  | "generate" =>
    let given ← gatherAll
      [systemSwitch, iterationsSwitch, limitSwitch, outputSwitch, everySwitch] arguments
    return .generate (← given.required "system")
      ((given.count? "iterations").getD generateIterations) (given.count? "max-symbols")
      (given.lookup "output") (given.lookup "all-generations").isSome
  | "help" =>
    match arguments with
    | [] => .error .helpWanted
    | [topic] =>
      if topic ∈ ["list", "expand", "generate", "help"] then .error .helpWanted
      else .error (.unknownCommand topic)
    | _ :: argument :: _ => .error (.unexpected argument)
  | _ => .error (.unknownCommand word)

end Command

namespace Invocation

/-- The file of definitions. -/
def librarySwitch : Switch := ⟨"config", some 'c', .path⟩

/-- The file of definitions when none is named. -/
def defaultLibrary : Path := "systems.yaml"

/-- What some arguments ask for. -/
def ofArguments (arguments : List String) : Except Misuse Invocation := do
  match ← gather [librarySwitch] [] arguments with
  | (_, []) => .error .missingCommand
  | (given, word :: arguments) =>
    let command ← Command.ofArguments word arguments
    return ⟨(given.lookup "config").getD defaultLibrary, command⟩

end Invocation

end LSystem
