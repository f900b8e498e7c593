import LSystem.Path
import LSystem.Table
set_option autoImplicit false

/-! # Workspaces: files and folders around a working directory

A workspace holds files and folders, each under its location. Paths are followed segment by segment,
and every segment is looked up in a folder: a path that goes on behind a file leads nowhere, and so
does one that names what is not there.

A path may also leave the working directory. The folders above it and the root are always there, but
nothing else is known to be there at first. -/

namespace LSystem

/-- The names from a file or folder up to the working directory, its own name first. Outside of the
    working directory they go on with `..` for each folder above it, or end with `/` at the root. -/
abbrev Location := List String

namespace Location

/-- The folder above. -/
def above (l : Location) : Location :=
  if l = ["/"] then l else if l.all (· == "..") then ".." :: l else l.tail

/-- Whether a location is under the working directory. -/
def isInside (l : Location) : Bool := l.getLast? != some ".." && l.getLast? != some "/"

/-- Where a path starts. -/
def origin (p : Path) : Location := if p.isAbsolute then ["/"] else []

end Location

/-- What is at a location. -/
inductive Entry where
  | folder
  | file (content : String)
  deriving DecidableEq

/-- Files and folders around a working directory. -/
abbrev Workspace := Table Location Entry

namespace Workspace

/-- What is at a location. The working directory, the folders above it and the root are folders. -/
def at? (w : Workspace) (l : Location) : Option Entry :=
  if l.all (· == "..") || l == ["/"] then some .folder else w.get? l

/-! ## Following paths -/

/-- The most bytes of a name. Longer names are neither found nor made. -/
def nameLimit : Nat := 255

/-- The most bytes of a path. -/
def pathLimit : Nat := 4095

/-- The location that a segment leads to. -/
def step? (w : Workspace) (l : Location) (segment : String) : Option Location :=
  if w.at? l ≠ some .folder then none
  else if segment = "" ∨ segment = "." then some l
  else if segment = ".." then some l.above
  else if (w.at? (segment :: l)).isSome then some (segment :: l)
  else none

/-- The location that a path leads to, if there is something. -/
def find? (w : Workspace) (path : Path) : Option Location :=
  if path = "" ∨ pathLimit < path.utf8ByteSize then none
  else path.segments.foldlM w.step? (Location.origin path)

/-- What a path leads to. -/
def entry? (w : Workspace) (path : Path) : Option Entry := (w.find? path).bind w.at?

/-! ## Making folders and files -/

/-- The location that a segment leads to, where a folder is made for a name that is not there. -/
def enter? : Workspace × Location → String → Option (Workspace × Location)
  | (w, l), segment =>
    match w.step? l segment with
    | some next => some (w, next)
    | none =>
      if w.at? l = some .folder ∧ segment.utf8ByteSize ≤ nameLimit then
        some (w.insert (segment :: l) .folder, segment :: l)
      else none

/-- The location that some segments lead to, which is a folder, with every folder on the way made. -/
def makeFolders? (w : Workspace) (start : Location) (segments : List String) :
    Option (Workspace × Location) := do
  let (w, l) ← segments.foldlM enter? (w, start)
  if w.at? l = some .folder then some (w, l) else none

/-- The workspace with a folder made that is not there yet. None when its path goes on behind a file
    or names one. A path that ends in a dot makes the folders up to the last one, which has to be
    there. -/
def makeFolder? (w : Workspace) (path : Path) : Option Workspace := do
  if pathLimit < path.utf8ByteSize then none
  let written := path.segments.filter (· ≠ "")
  let named := written.filter (· ≠ ".")
  if written.getLast? = some "." then
    let (w, _) ← w.makeFolders? (Location.origin path) named.dropLast
    if w.entry? path = some .folder then some w else none
  else
    let (w, _) ← w.makeFolders? (Location.origin path) named
    some w

/-- The workspace with a text written to a path, over what the file held before; the folders on the
    way are made. None when the path names a folder or goes on behind a file. -/
def write? (w : Workspace) (path : Path) (text : String) : Option Workspace := do
  if pathLimit < path.utf8ByteSize then none
  let segments := path.segments
  let name := segments.getLastD ""
  let (w, l) ← w.makeFolders? (Location.origin path) segments.dropLast
  if name ∈ ["", ".", ".."] ∨ nameLimit < name.utf8ByteSize then none
  if w.at? (name :: l) = some .folder then none
  some (w.insert (name :: l) (.file text))

/-! ## Files -/

/-- The files under the working directory, each with its path. -/
def files (w : Workspace) : List (Path × String) :=
  w.toList.filterMap fun (l, e) =>
    match e with
    | .file content => if l.isInside then some ("/".intercalate l.reverse, content) else none
    | .folder => none

/-- The workspace that holds some files. -/
def ofFiles (files : List (Path × String)) : Workspace :=
  files.foldl (fun w (path, content) => (w.write? path content).getD w) .empty

end Workspace

end LSystem
