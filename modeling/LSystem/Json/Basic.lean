import LSystem.Json.Numeral
set_option autoImplicit false

/-! # JSON values and their text

A value is written in one of two layouts: compact, on one line without blanks, or spread, every
member on a line of its own, two blanks further in than what it belongs to. The two differ only in
what stands in front of a member and behind a key, so there is one printer for both.

In a string the quote, the backslash and the control characters are escaped; everything else stands
for itself. -/

namespace LSystem

/-- A JSON value; the members of an object keep their order. -/
inductive Json where
  | null
  | bool (b : Bool)
  | number (n : Json.Numeral)
  | string (s : String)
  | array (items : List Json)
  | object (members : List (String × Json))

namespace Json

/-- A whole number. -/
def nat (n : Nat) : Json := .number (.ofNat n)

/-- A float, or null where it is not finite. -/
def float (x : Float) : Json :=
  match Numeral.ofFloat? x with
  | some n => .number n
  | none => .null

/-! ## Strings -/

/-- One character inside a quoted string. -/
def escape (c : Char) : List Char :=
  match c with
  | '"' => ['\\', '"']
  | '\\' => ['\\', '\\']
  | '\n' => ['\\', 'n']
  | '\r' => ['\\', 'r']
  | '\t' => ['\\', 't']
  | '\x08' => ['\\', 'b']
  | '\x0c' => ['\\', 'f']
  | c =>
    if c.toNat < 32 then
      ['\\', 'u', '0', '0', Nat.digitChar (c.toNat / 16), Nat.digitChar (c.toNat % 16)]
    else [c]

/-- A text between quotes. -/
def quote (s : String) : String :=
  "\"" ++ String.ofList (s.toList.flatMap escape) ++ "\""

/-! ## Layouts -/

/-- What stands in front of a member at some depth, and what behind a key. -/
structure Layout where
  gap : Nat → String
  colon : String

/-- Everything on one line. -/
def Layout.compact : Layout := ⟨fun _ => "", ":"⟩

/-- A line for each member. -/
def Layout.spread : Layout :=
  ⟨fun depth => String.ofList ('\n' :: List.replicate (2 * depth) ' '), ": "⟩

mutual

/-- Write a value at some depth behind what is already written. -/
def write (l : Layout) (depth : Nat) (out : String) : Json → String
  | .null => out ++ "null"
  | .bool true => out ++ "true"
  | .bool false => out ++ "false"
  | .number n => out ++ String.ofList n.chars
  | .string s => out ++ quote s
  | .array [] => out ++ "[]"
  | .array (j :: js) =>
    writeItems l (depth + 1) (write l (depth + 1) (out ++ "[" ++ l.gap (depth + 1)) j) js
      ++ l.gap depth ++ "]"
  | .object [] => out ++ "\x7b\x7d"
  | .object (m :: ms) =>
    writeMembers l (depth + 1) (writeMember l (depth + 1) (out ++ "\x7b" ++ l.gap (depth + 1)) m) ms
      ++ l.gap depth ++ "\x7d"

/-- Write the items of an array after its first. -/
def writeItems (l : Layout) (depth : Nat) (out : String) : List Json → String
  | [] => out
  | j :: js => writeItems l depth (write l depth (out ++ "," ++ l.gap depth) j) js

/-- Write a key and its value. -/
def writeMember (l : Layout) (depth : Nat) (out : String) : String × Json → String
  | (key, j) => write l depth (out ++ quote key ++ l.colon) j

/-- Write the members of an object after its first. -/
def writeMembers (l : Layout) (depth : Nat) (out : String) : List (String × Json) → String
  | [] => out
  | m :: ms => writeMembers l depth (writeMember l depth (out ++ "," ++ l.gap depth) m) ms

end

/-- The compact text of a value. -/
def compact (j : Json) : String := write .compact 0 "" j

/-- The text of a value spread over lines. -/
def spread (j : Json) : String := write .spread 0 "" j

end Json

end LSystem
