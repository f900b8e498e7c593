import LSystem.Decimal.Count
import LSystem.EnvFile.Assignment
set_option autoImplicit false

/-! # Settings

Three variables hold what the program can be told once for all its runs: where it logs, where it
writes, and how long a generation may get. A variable that is set for the process counts, even when
its text is empty; else the first assignment in the environment file counts; else the default does. -/

namespace LSystem

/-- What is set for all runs. -/
structure Settings where
  logDirectory : String
  outputDirectory : String
  symbolLimit : Nat
  deriving DecidableEq, Repr

namespace Settings

/-- The settings when no variable is set. -/
def default : Settings := ⟨"logs", "out", 5000000⟩

/-- The settings of some variables. A limit that is no count is taken as not set. -/
def ofVariables (vars : Variables) : Settings where
  logDirectory := (vars.get? "LSYSTEM_LOG_DIR").getD default.logDirectory
  outputDirectory := (vars.get? "LSYSTEM_OUTPUT_DIR").getD default.outputDirectory
  symbolLimit :=
    ((vars.get? "LSYSTEM_MAX_SYMBOLS").bind Decimal.count?).getD default.symbolLimit

/-- The variables of a process together with those that its environment file adds. -/
def environment (vars : Variables) : Option String → Variables
  | none => vars
  | some text => vars ++ EnvFile.assignments vars text

/-- The settings of a process with the text of its environment file, if there is one. -/
def load (vars : Variables) (file : Option String) : Settings := ofVariables (environment vars file)

end Settings

end LSystem
