import LSystem.Document.Encoding
import LSystem.Json.Reader
set_option autoImplicit false

/-! # Reading a vector back

A vector is read from an object that has `x` and `y` once each, whatever else it holds, or from a
list of exactly two numbers. -/

namespace LSystem.Vec

open Json.Reader

/-- The float of a JSON number. -/
def coordinate? : Json → Option Float
  | .number n => n.toFloat?
  | _ => none

/-- The value of a key that occurs exactly once. -/
def only? (key : String) (members : List (String × Json)) : Option Json :=
  match members.filter fun m => m.1 == key with
  | [m] => some m.2
  | _ => none

/-- A vector from the members of an object. -/
def ofMembers? (members : List (String × Json)) : Option Point := do
  let x ← coordinate? (← only? "x" members)
  let y ← coordinate? (← only? "y" members)
  return ⟨x, y⟩

/-- A vector from the items of a list. -/
def ofItems? : List Json → Option Point
  | [x, y] => do return ⟨← coordinate? x, ← coordinate? y⟩
  | _ => none

/-- A vector off the front of a text. -/
def read? (s : List Char) : Option (Point × List Char) :=
  let fuel := 2 * s.length + 2
  match skip s with
  | '{' :: s => do
    let (ms, s) ← members? fuel none s
    return (← ofMembers? ms, s)
  | '[' :: s => do
    let (js, s) ← items? fuel s
    return (← ofItems? js, s)
  | _ => none

/-- A whole text as a vector. -/
def ofText? (text : String) : Option Point := do
  let (v, rest) ← read? text.toList
  if (skip rest).isEmpty then some v else none

end LSystem.Vec
