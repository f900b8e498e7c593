set_option autoImplicit false

/-! # Paths

A path is a row of segments with slashes between them. A path that starts with a slash is absolute;
any other one starts at the working directory. Empty segments and `.` stand for the folder that they
are looked up in, and `..` for the one above it. -/

namespace LSystem

/-- The way to a file or folder, as it is written. -/
abbrev Path := String

namespace Path

/-- The parts of a text between its slashes. -/
def split : List Char → List (List Char)
  | [] => [[]]
  | c :: cs =>
    match split cs with
    | [] => [[c]]
    | part :: parts => if c = '/' then [] :: part :: parts else (c :: part) :: parts

/-- The segments of a path; an absolute path has an empty one in front. -/
def segments (p : Path) : List String := (split p.toList).map String.ofList

/-- Whether a path starts with a slash. -/
def isAbsolute (p : Path) : Bool := p.toList.head? == some '/'

/-- A path as seen from a folder: an absolute one is what it is, and any other one is put behind the
    folder with a slash between, unless the folder is empty or ends in one. -/
def join (folder p : Path) : Path :=
  if p.isAbsolute then p
  else
    match folder.toList.getLast? with
    | none => p
    | some '/' => folder ++ p
    | some _ => folder ++ "/" ++ p

end Path

end LSystem
