import LSystem.EnvFile.Variables
import LSystem.Text.Alphanumeric
set_option autoImplicit false

/-! # Values of an environment file

A value is plain text, text in double quotes and text in single quotes, in any sequence without
blanks between; a blank outside of quotes ends it, and only a comment may follow. Single quotes take
everything as it stands. Outside of them a backslash escapes the next character, and a dollar sign
puts in the value of a variable, whose name is either in braces or runs as far as there are letters
and numbers. A variable without a value leaves nothing. -/

namespace LSystem.EnvFile

/-- The character that an escape stands for. -/
def unescape? (c : Char) : Option Char :=
  if c == 'n' then some '\n'
  else if c == '\\' || c == '\'' || c == '"' || c == '$' || c == ' ' then some c
  else none

/-- How the next character of a value is taken; `quoted` says whether double quotes are open. -/
inductive Mode where
  | text (quoted : Bool)
  | escape (quoted : Bool)
  | literal
  | name (quoted : Bool) (letters : List Char)
  | braces (quoted : Bool) (letters : List Char)
  | over

/-- What is put in for the name of a variable. -/
def substitute (vars : Variables) (letters : List Char) : List Char :=
  ((vars.get? (String.ofList letters)).getD "").toList

/-- The text of a value; none when it is malformed. -/
def value? (vars : Variables) : Mode → List Char → Option (List Char)
  | .text quoted, [] => if quoted then none else some []
  | .escape quoted, [] => if quoted then none else some []
  | .literal, [] => none
  | .name quoted letters, [] => if quoted then none else some (substitute vars letters)
  | .braces _ _, [] => none
  | .over, [] => some []
  | .over, c :: cs =>
    if c == ' ' || c == '\t' then value? vars .over cs else if c == '#' then some [] else none
  | .escape quoted, c :: cs => do
    let d ← unescape? c
    return d :: (← value? vars (.text quoted) cs)
  | .literal, c :: cs =>
    if c == '\'' then value? vars (.text false) cs else (c :: ·) <$> value? vars .literal cs
  | .name quoted letters, c :: cs =>
    if CharSet.alphanumeric.contains c then value? vars (.name quoted (letters ++ [c])) cs
    else if c == '\x7b' && letters.isEmpty then value? vars (.braces quoted []) cs
    else if c == '$' then (substitute vars letters ++ ·) <$> value? vars (.name quoted []) cs
    else (substitute vars letters ++ c :: ·) <$> value? vars (.text quoted) cs
  | .braces quoted letters, c :: cs =>
    if c == '\x7d' then (substitute vars letters ++ ·) <$> value? vars (.text quoted) cs
    else value? vars (.braces quoted (letters ++ [c])) cs
  | .text quoted, c :: cs =>
    if c == '$' then value? vars (.name quoted []) cs
    else if c == '"' then value? vars (.text !quoted) cs
    else if c == '\\' then value? vars (.escape quoted) cs
    else if quoted then (c :: ·) <$> value? vars (.text true) cs
    else if c == '\'' then value? vars .literal cs
    else if c == ' ' || c == '\t' then value? vars .over cs
    else (c :: ·) <$> value? vars (.text false) cs

end LSystem.EnvFile
