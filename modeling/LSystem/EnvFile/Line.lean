import LSystem.Text.WhiteSpace
set_option autoImplicit false

/-! # Lines of an environment file

A quoted text may hold line breaks, so a line of an environment file can take several lines of its
text. What is read so far is a line as soon as its characters leave no quote and no escape open. A
comment begins at a `#` behind white space, or in front of everything else on a line, and reaches to
the end of the text's line: what stands in front of it is the whole of its line.

Open quotes at the end of the text, and white space there without a line break, are no line. -/

namespace LSystem.EnvFile

/-- The lines of a text, each with its line break. -/
def textLines : List Char → List (List Char)
  | [] => []
  | '\n' :: cs => ['\n'] :: textLines cs
  | c :: cs =>
    match textLines cs with
    | [] => [[c]]
    | l :: ls => (c :: l) :: ls

/-- What the next character stands in. -/
inductive Context where
  | plain
  | blank
  | escape
  | single
  | singleEscape
  | double
  | doubleEscape
  deriving DecidableEq

namespace Context

/-- What stands behind a character; none when the character begins a comment. -/
def next : Context → Char → Option Context
  | plain, c =>
    if CharSet.whiteSpace.contains c && c != '\n' && c != '\r' then some blank
    else if c == '\\' then some escape
    else if c == '"' then some double
    else if c == '\'' then some single
    else some plain
  | blank, c =>
    if c == '#' then none
    else if c == '\\' then some escape
    else if c == '"' then some double
    else if c == '\'' then some single
    else some plain
  | escape, _ => some plain
  | single, c =>
    if c == '\\' then some singleEscape else if c == '\'' then some plain else some single
  | singleEscape, _ => some single
  | double, c =>
    if c == '\\' then some doubleEscape else if c == '"' then some plain else some double
  | doubleEscape, _ => some double

/-- The characters in front of a comment. -/
def beforeComment : Context → List Char → List Char
  | _, [] => []
  | p, c :: cs =>
    match p.next c with
    | some q => c :: beforeComment q cs
    | none => []

end Context

/-- A line without its line break. -/
def chomp (line : List Char) : List Char :=
  match line.reverse with
  | '\n' :: '\r' :: rest => rest.reverse
  | '\n' :: rest => rest.reverse
  | _ => line

/-- The lines of a file; none stands for one that is not finished, which can only be the last. -/
def lines (start : List Char) (p : Context) : List (List Char) → List (Option (List Char))
  | [] => if p = .plain then [] else [none]
  | l :: ls =>
    let line := start ++ l
    if (line.dropWhile CharSet.whiteSpace.contains).head? = some '#' then
      some [] :: lines [] .plain ls
    else
      match l.foldlM Context.next p with
      | some .plain => some (chomp line) :: lines [] .plain ls
      | some q => lines line q ls
      | none => some (start ++ p.beforeComment l) :: lines [] .plain ls

end LSystem.EnvFile
