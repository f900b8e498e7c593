import LSystem.Decimal.Reader
import LSystem.Definition
import LSystem.Yaml.Node
set_option autoImplicit false

/-! # Libraries as YAML

A library file is a mapping whose member `systems` is a list of definitions. A definition has a
`name`, an `axiom` and `angle_degrees`, and may have `rules`. Members that are not known are passed
over; one that is known may not occur twice. A text member takes the text of any scalar. The angle
takes a plain number only, or one of the plain words for an infinity or NaN. Where a list or a
mapping is expected, nothing at all counts as an empty one. -/

namespace LSystem.Yaml

namespace Node

/-- The text of a scalar. -/
def text? : Node → Option String
  | .scalar text _ => some text
  | _ => none

/-- The items of a sequence, or of a value left out. -/
def items? : Node → Option (List Node)
  | .sequence items => some items
  | .scalar "" true => some []
  | _ => none

/-- The members of a mapping with its keys as texts, or of a value left out. -/
def members? : Node → Option (List (String × Node))
  | .mapping entries => entries.mapM fun (key, value) => key.text?.map (·, value)
  | .scalar "" true => some []
  | _ => none

/-- The words for the floats that are not finite. -/
def specialFloat? : String → Option Float
  | ".inf" | ".Inf" | ".INF" | "+.inf" | "+.Inf" | "+.INF" => some (1.0 / 0.0)
  | "-.inf" | "-.Inf" | "-.INF" => some (-1.0 / 0.0)
  | ".nan" | ".NaN" | ".NAN" => some (0.0 / 0.0)
  | _ => none

/-- The finite float of a number with an optional sign. -/
def finiteFloat? (s : List Char) : Option Float := do
  let x ← match s with
    | '+' :: '-' :: _ => none
    | '+' :: s => Decimal.readFloat? s
    | s => Decimal.readFloat? s
  if Binary64.isFinite x then some x else none

/-- The float of a plain scalar. -/
def float? : Node → Option Float
  | .scalar text true =>
    match specialFloat? text with
    | some x => some x
    | none => finiteFloat? text.toList
  | _ => none

end Node

/-- The value of a key among members, if it occurs; it may not occur twice. -/
def atMostOnce? (key : String) (members : List (String × Node)) : Option (Option Node) :=
  match members.filter fun m => m.1 == key with
  | [] => some none
  | [m] => some (some m.2)
  | _ => none

/-- The value of a key among members, which must occur exactly once. -/
def once? (key : String) (members : List (String × Node)) : Option Node := do
  (← atMostOnce? key members)

/-- The rules of a definition; of several with one key the last counts. -/
def rules? (node : Node) : Option (Table String String) := do
  let pairs ← (← node.members?).mapM fun (key, value) => value.text?.map (key, ·)
  return .ofList pairs

/-- A definition. -/
def definition? (node : Node) : Option Definition := do
  let members ← node.members?
  let name ← (← once? "name" members).text?
  let initiator ← (← once? "axiom" members).text?
  let rules ← rules? ((← atMostOnce? "rules" members).getD .empty)
  let degrees ← (← once? "angle_degrees" members).float?
  return ⟨name, initiator, rules, degrees⟩

/-- The library that a node stands for. -/
def libraryOfNode? (node : Node) : Option Library := do
  let systems ← atMostOnce? "systems" (← node.members?)
  (← (systems.getD .empty).items?).mapM definition?

/-- The library that a text stands for. -/
def library? (text : String) : Option Library := do libraryOfNode? (← Node.ofText? text)

end LSystem.Yaml
