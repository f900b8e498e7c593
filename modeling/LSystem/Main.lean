import LSystem.Program.Basic
import LSystem.Yaml.Library
import Std.Time.Format
set_option autoImplicit false

/-! # The command line program

The working directory of the process as a host, and the entry point. -/

namespace LSystem.Directory

/-- The text of the environment file in the working directory or the nearest folder above it. -/
def environmentFile : IO (Option String) := do
  let mut folder := some (← IO.currentDir)
  repeat
    let some here := folder | break
    let file := here / ".env"
    if (← file.pathExists) && !(← file.isDir) then
      try return some (← IO.FS.readFile file)
      catch _ => return none
    folder := here.parent
  return none

/-- Open the log of the day in a folder. -/
def openLog (path : Path) : IO LogOpening := do
  let folder := (← IO.currentDir) / path
  unless ← folder.pathExists do
    try IO.FS.createDirAll folder
    catch _ => return .noFolder
  try
    let day ← Std.Time.PlainDate.now
    let log ← IO.FS.Handle.mk (folder / logName (toString day)) .append
    log.putStrLn s!"{← Std.Time.DateTime.now} started"
    return .opened
  catch _ => return .noFile

/-- Read a file. -/
def read (path : Path) : IO Content := do
  let file := (← IO.currentDir) / path
  unless ← file.pathExists do return .missing
  try return .text (← IO.FS.readFile file)
  catch _ => return .unreadable

/-- Write a file with the folders on the way to it. -/
def write (path : Path) (text : String) : IO Bool := do
  let file := (← IO.currentDir) / path
  try
    if let some folder := file.parent then IO.FS.createDirAll folder
    IO.FS.writeFile file text
    return true
  catch _ => return false

/-- The working directory as a host. -/
def host : Host IO where
  environmentFile := environmentFile
  openLog := openLog
  read := read
  write := write
  stamp := return (← Std.Time.DateTime.now).toISO8601String

/-- The variables of the process: those that the settings come from, and those that some text may
    refer to. -/
def processVariables (text : String) : IO Variables := do
  let names := ["LSYSTEM_LOG_DIR", "LSYSTEM_OUTPUT_DIR", "LSYSTEM_MAX_SYMBOLS"]
  let words (inWord : Char → Bool) : List String := text.splitToList fun c => !inWord c
  let mentioned := words Char.isAlphanum ++ words fun c => c.isAlphanum || c == '_' || c == '.'
  (names ++ mentioned).filterMapM fun name => return (← IO.getEnv name).map (name, ·)

/-- Run the program and print what it says: its answer, or what went wrong. -/
def launch (arguments : List String) : IO UInt32 := do
  let vars ← processVariables ((← environmentFile).getD "")
  let outcome ← Program.run host Yaml.library? vars arguments
  IO.print outcome.output
  match outcome with
  | .failed failure => IO.eprintln failure.message
  | .unset => IO.eprintln "the environment file assigns what no variable can hold"
  | .blocked => IO.eprintln "a file or folder could not be used"
  | .unlogged => IO.eprintln "the log could not be written"
  | .misused .helpWanted => pure ()
  | .misused misuse => IO.eprintln misuse.message
  | .finished _ => pure ()
  return outcome.status

end LSystem.Directory

/-- The entry point. -/
def main (arguments : List String) : IO UInt32 := LSystem.Directory.launch arguments
