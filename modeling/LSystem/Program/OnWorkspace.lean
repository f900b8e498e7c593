import LSystem.Program.Basic
import LSystem.Workspace
import LSystem.Yaml.Library
set_option autoImplicit false

/-! # The program on a workspace

A workspace is a host: its environment file is the nearest one on the way up from the working directory,
and opening a log makes the folder of the log and needs a path that a file may have. The log itself is no
file of the workspace. Definitions are kept as YAML, but the program runs with any other reader as well. -/

namespace LSystem.Workspace

/-- How far from the working directory or the root anything is known to be. -/
def reach (w : Workspace) : Nat := (w.toList.map (·.1.length)).max?.getD 0

/-- The working directory and the folders above it, the nearest first and the root last. What is in a folder
    has a longer location than the folder, so there is no need to go up any further than things reach. -/
def upward (w : Workspace) : List Location :=
  (List.range w.reach).map (List.replicate · "..") ++ [["/"]]

/-- The text of the environment file in a folder. -/
def environmentFileIn? (w : Workspace) (folder : Location) : Option String :=
  match w.at? (".env" :: folder) with
  | some (.file content) => some content
  | _ => none

/-- The text of the environment file in the working directory or the nearest folder above it. -/
def environmentFile? (w : Workspace) : Option String := w.upward.findSome? w.environmentFileIn?

/-- What can be read from a path. -/
def read (w : Workspace) (path : Path) : Content :=
  match w.entry? path with
  | none => .missing
  | some .folder => .unreadable
  | some (.file content) => .text content

/-- Open the log of a day in a folder, which is made if there is nothing yet. -/
def openLog (w : Workspace) (day : String) (path : Path) : LogOpening × Workspace :=
  match if (w.entry? path).isSome then some w else w.makeFolder? path with
  | none => (.noFolder, w)
  | some w => if (w.write? (path.join (logName day)) "").isSome then (.opened, w) else (.noFile, w)

/-- A workspace as a host, on which the time stands still and it is always the same day. -/
def host (stamp : String) : Host (StateM Workspace) where
  environmentFile := return (← get).environmentFile?
  openLog path w := w.openLog "1970-01-01" path
  read path := return (← get).read path
  write path text w :=
    match w.write? path text with
    | some w => (true, w)
    | none => (false, w)
  stamp := return stamp

/-- Run the program on a workspace, with a reader for definitions. -/
def runWith (w : Workspace) (reader : LibraryReader) (stamp : String) (vars : Variables)
    (arguments : List String) : Outcome × Workspace :=
  (Program.run (host stamp) reader vars arguments).run w

/-- Run the program on a workspace where definitions are kept as YAML. -/
def runProgram (w : Workspace) (stamp : String) (vars : Variables) (arguments : List String) :
    Outcome × Workspace :=
  w.runWith Yaml.library? stamp vars arguments

end LSystem.Workspace
