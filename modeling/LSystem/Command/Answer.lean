import LSystem.Command.Basic
import LSystem.Decimal.Places
import LSystem.Definition
import LSystem.Document.Basic
import LSystem.Settings
import LSystem.Text.Quoted
set_option autoImplicit false

/-! # Answers to commands

A command is answered by a text to print and possibly a document to write, or by the reason why there
is none. Everything that can fail happens before there is an answer, so a refused command leaves
nothing behind: all that is left to do with an answer is to write and to print. -/

namespace LSystem

/-- What a command leads to. -/
structure Answer where
  document : Option (Path × Document)
  output : String

namespace Command

/-! ## Lists -/

/-- The line of a system in a list. -/
def listLine (name initiator : String) (rules : Nat) (degrees : Float) : String :=
  s!"  - {name} [axiom {initiator}] ({rules} rules, {Decimal.fixed 1 degrees} deg)\n"

/-- The presets, and below them the definitions if there are any. -/
def listText (library : Library) : String :=
  let presets := catalogue.map fun p =>
    listLine p.name p.initiator p.productions.length (Binary64.degrees p.angle)
  let definitions := library.map fun d => listLine d.name d.initiator d.rules.size d.degrees
  s!"Presets ({catalogue.length}):\n" ++ String.join presets ++
    if library.isEmpty then ""
    else s!"\nConfigured ({library.length}):\n" ++ String.join definitions

/-! ## Generations -/

/-- The run of a system after some generations, none of which exceeds the limit. -/
def grown (system : System) (iterations limit : Nat) : Except Failure Run :=
  let (r, result) := (Run.start system).iterateWithin limit iterations
  result.map fun _ => r

/-- The file that is written when none is named. -/
def defaultOutput (settings : Settings) (name : String) : Path :=
  Path.join settings.outputDirectory (name ++ ".json")

/-- The coordinates of a point, to three places. -/
def pointText (p : Point) : String := s!"[{Decimal.fixed 3 p.x}, {Decimal.fixed 3 p.y}]"

/-- The answer that writes the drawing of a generation. -/
def drawingAnswer (name : String) (system : System) (iterations limit : Nat) (output : Path)
    (stamp : String) : Except Failure Answer := do
  let r ← grown system iterations limit
  let (r, drawn) := r.draw
  let g ← drawn
  let box := s!"{pointText g.bounds.min} - {pointText g.bounds.max}"
  return ⟨some (output, .geometry (.ofRun name r stamp)),
    s!"{name} -> {Text.quoted output} ({g.segmentCount} segments, bounds {box})\n"⟩

/-- The answer that writes the drawings of all generations. The growth is tried out beforehand, so
    that no generation is drawn when one exceeds the limit. -/
def traceAnswer (name : String) (system : System) (iterations limit : Nat) (output : Path)
    (stamp : String) : Except Failure Answer := do
  let _ ← grown system iterations limit
  let frames ← ((Run.start system).trace iterations).2
  return ⟨some (output, .trace (.ofFrames name system.angle frames stamp)),
    s!"{name} -> {Text.quoted output} ({frames.length} generations)\n"⟩

/-- The answer to a command. -/
def answer (settings : Settings) (library : Library) (stamp : String) :
    Command → Except Failure Answer
  | list => .ok ⟨none, listText library⟩
  | expand name iterations limit => do
    let system ← library.resolve name
    let r ← grown system iterations (limit.getD settings.symbolLimit)
    return ⟨none, String.ofList r.current ++ "\n"⟩
  | generate name iterations limit output every => do
    let system ← library.resolve name
    let output := output.getD (defaultOutput settings name)
    let limit := limit.getD settings.symbolLimit
    if every then traceAnswer name system iterations limit output stamp
    else drawingAnswer name system iterations limit output stamp

end Command

end LSystem
