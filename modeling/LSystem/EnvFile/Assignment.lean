import LSystem.EnvFile.Line
import LSystem.EnvFile.Value
set_option autoImplicit false

/-! # Assignments of an environment file

A line assigns a value to a name, possibly behind the word `export`, or is empty. The first line that
is neither ends the file: what stands in front of it counts, what stands behind it does not. A value
may refer to variables that are set already, be it outside of the file or on an earlier line. -/

namespace LSystem.EnvFile

/-- What a line says. -/
inductive Statement where
  | nothing
  | assignment (name value : String)
  | malformed

/-- The text without the white space in front. -/
def skipSpace (cs : List Char) : List Char := cs.dropWhile CharSet.whiteSpace.contains

/-- A name at the front of a text: a letter or `_`, then letters, digits, `_` and `.`. -/
def name? : List Char → Option (List Char × List Char)
  | [] => none
  | c :: cs =>
    let inner (c : Char) : Bool := c.isAlphanum || c == '_' || c == '.'
    if c.isAlpha || c == '_' then some (c :: cs.takeWhile inner, cs.dropWhile inner) else none

/-- The text behind an equals sign. -/
def behindEquals? : List Char → Option (List Char)
  | '=' :: cs => some cs
  | _ => none

/-- The name that a line assigns to, and the text behind the equals sign. The word `export` is the
    name itself when an equals sign follows it. -/
def target? (cs : List Char) : Option (List Char × List Char) := do
  let (name, cs) ← name? cs
  let cs := skipSpace cs
  match behindEquals? cs with
  | some cs => return (name, cs)
  | none =>
    if name ≠ "export".toList then none
    let (name, cs) ← name? cs
    return (name, ← behindEquals? (skipSpace cs))

/-- Whether nothing but a comment is left. -/
def isVoid (cs : List Char) : Bool := cs.isEmpty || cs.head? == some '#'

namespace Statement

/-- What a line says where some variables are set. -/
def ofLine (vars : Variables) (line : List Char) : Statement :=
  let cs := (skipSpace (skipSpace line.reverse).reverse)
  if isVoid cs then .nothing
  else
    match target? cs with
    | none => .malformed
    | some (name, cs) =>
      let cs := skipSpace cs
      if isVoid cs then .assignment (String.ofList name) ""
      else
        match value? vars (.text false) cs with
        | some value => .assignment (String.ofList name) (String.ofList value)
        | none => .malformed

end Statement

/-- The assignments in front of the first line that makes none and is not empty. -/
def assignmentsOf (vars : Variables) : List (Option (List Char)) → Variables
  | some line :: rest =>
    match Statement.ofLine vars line with
    | .nothing => assignmentsOf vars rest
    | .assignment name value => (name, value) :: assignmentsOf (vars ++ [(name, value)]) rest
    | .malformed => []
  | _ => []

/-- The assignments of a file, in their order; a byte order mark in front does not matter. -/
def assignments (vars : Variables) (text : String) : Variables :=
  let cs := match text.toList with
    | '\ufeff' :: cs => cs
    | cs => cs
  assignmentsOf vars (lines [] .plain (textLines cs))

end LSystem.EnvFile
