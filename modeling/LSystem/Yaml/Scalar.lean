import LSystem.Yaml.Cursor
set_option autoImplicit false

/-! # Scalars of a YAML text

A scalar is written plain, between quotes, or as a block of lines. What stands between the words of
a plain or quoted scalar is folded: blanks within a line are kept, a single line break counts as
one space, and of several breaks the first is dropped. Between double quotes a backslash escapes a
character or hides a line break. A literal block keeps its lines as they are, a folded block joins
lines that are not indented further. -/

namespace LSystem.Yaml

/-! ## The gaps between words -/

/-- What was read between two words: blanks in front of the first break, that break, and the
    breaks after it. `broken` holds once there was a break, hidden or not. -/
structure Gap where
  blanks : List Char
  broken : Bool
  first : List Char
  more : List Char

/-- The text that a gap stands for. -/
def Gap.text (g : Gap) : List Char :=
  if !g.broken then g.blanks
  else match g.first with
    | '\n' :: _ => if g.more.isEmpty then [' '] else g.more
    | first => first ++ g.more

/-- Read on to the next character that is neither blank nor break. A tab that indents a line less
    than `indent` columns is refused. -/
def readGap (indent : Nat) : Nat → Gap → Cursor → Option (Gap × Cursor)
  | 0, _, _ => none
  | fuel + 1, g, c =>
    match c.rest with
    | [] => some (g, c)
    | x :: _ =>
      if isBlank x then
        if !g.broken then readGap indent fuel { g with blanks := g.blanks ++ [x] } c.next
        else if x == '\t' && c.column < indent then none
        else readGap indent fuel g c.next
      else if isBreak x then
        if g.broken then readGap indent fuel { g with more := g.more ++ c.lineBreak } c.nextLine
        else readGap indent fuel { g with broken := true, first := c.lineBreak } c.nextLine
      else some (g, c)

/-! ## Quoted scalars -/

/-- The character of an escape of one letter. -/
def shortEscape? : Char → Option Char
  | '0' => some '\x00'
  | 'a' => some '\x07'
  | 'b' => some '\x08'
  | 't' => some '\t'
  | '\t' => some '\t'
  | 'n' => some '\n'
  | 'v' => some '\x0b'
  | 'f' => some '\x0c'
  | 'r' => some '\r'
  | 'e' => some '\x1b'
  | ' ' => some ' '
  | '"' => some '"'
  | '/' => some '/'
  | '\\' => some '\\'
  | 'N' => some '\u0085'
  | '_' => some '\u00a0'
  | 'L' => some '\u2028'
  | 'P' => some '\u2029'
  | _ => none

/-- How many hexadecimal digits follow the letter of a numeric escape. -/
def escapeLength? : Char → Option Nat
  | 'x' => some 2
  | 'u' => some 4
  | 'U' => some 8
  | _ => none

/-- The value of a hexadecimal digit. -/
def hexValue? (c : Char) : Option Nat :=
  if '0' ≤ c ∧ c ≤ '9' then some (c.toNat - '0'.toNat)
  else if 'a' ≤ c ∧ c ≤ 'f' then some (c.toNat - 'a'.toNat + 10)
  else if 'A' ≤ c ∧ c ≤ 'F' then some (c.toNat - 'A'.toNat + 10)
  else none

/-- The character of an escape, and how much text it takes from the letter on. -/
def escape? : List Char → Option (Char × Nat)
  | [] => none
  | x :: rest =>
    match shortEscape? x with
    | some c => some (c, 1)
    | none => do
      let n ← escapeLength? x
      let ds ← (rest.take n).mapM hexValue?
      let value := ds.foldl (fun v d => v * 16 + d) 0
      if ds.length < n || (0xd800 ≤ value && value ≤ 0xdfff) || 0x10ffff < value then none
      else some (Char.ofNat value, n + 1)

/-- The characters up to the next gap or the closing quote. The flag tells that the run ended at
    a line break hidden by a backslash. -/
def quotedRun (single : Bool) : Nat → Cursor → Option (List Char × Bool × Cursor)
  | 0, _ => none
  | fuel + 1, c =>
    match c.rest with
    | [] => some ([], false, c)
    | x :: rest => do
      if isBlank x || isBreak x then return ([], false, c)
      else if single then
        if x != '\x27' then
          let (run, joined, c) ← quotedRun single fuel c.next
          return (x :: run, joined, c)
        else match rest with
          | '\x27' :: _ =>
            let (run, joined, c) ← quotedRun single fuel (c.advance 2)
            return ('\x27' :: run, joined, c)
          | _ => return ([], false, c)
      else if x == '"' then return ([], false, c)
      else if x != '\\' then
        let (run, joined, c) ← quotedRun single fuel c.next
        return (x :: run, joined, c)
      else if c.next.sees isBreak then return ([], true, c.next.nextLine)
      else
        let (e, n) ← escape? rest
        let (run, joined, c) ← quotedRun single fuel (c.advance (n + 1))
        return (e :: run, joined, c)

/-- A quoted scalar whose opening quote is already taken. -/
def quoted (single : Bool) : Nat → Cursor → Option (List Char × Cursor)
  | 0, _ => none
  | fuel + 1, c => do
    if c.atDocumentMark || c.rest.isEmpty then none
    else
      let (run, joined, c) ← quotedRun single (c.rest.length + 1) c
      if c.sees (· == if single then '\x27' else '"') then return (run, c.next)
      else
        let (g, c) ← readGap 0 (c.rest.length + 1) ⟨[], joined, [], []⟩ c
        let (more, c) ← quoted single fuel c
        return (run ++ g.text ++ more, c)

/-! ## Plain scalars -/

/-- The marks that end a plain scalar inside brackets. -/
def isFlowMark (c : Char) : Bool := c == ',' || c == '[' || c == ']' || c == '{' || c == '}'

/-- The characters up to the next gap or to a mark that ends the scalar. Inside brackets a colon
    right in front of a bracket, a comma or a question mark is refused. -/
def plainRun (flow : Bool) : Nat → Cursor → Option (List Char × Cursor)
  | 0, _ => none
  | fuel + 1, c =>
    match c.rest with
    | [] => some ([], c)
    | x :: rest => do
      if isBlank x || isBreak x then return ([], c)
      else if flow && x == ':' && c.next.sees (fun y => isFlowMark y || y == '?') then none
      else if (x == ':' && atGap rest) || (flow && isFlowMark x) then return ([], c)
      else
        let (run, c) ← plainRun flow fuel c.next
        return (x :: run, c)

/-- A plain scalar from here on, `between` being the gap in front if there was one. The flag tells
    that the scalar ended behind a line break. A gap belongs to the scalar only when a word
    follows it. -/
def plain (flow : Bool) (indent : Nat) : Nat → Gap → Cursor → Option (List Char × Bool × Cursor)
  | 0, _, _ => none
  | fuel + 1, between, c => do
    if c.atDocumentMark || c.sees (· == '#') then return ([], between.broken, c)
    else
      let (run, c) ← plainRun flow (c.rest.length + 1) c
      let word := if run.isEmpty then [] else between.text ++ run
      let broken := between.broken && run.isEmpty
      if !c.sees (fun x => isBlank x || isBreak x) then return (word, broken, c)
      else
        let (g, c) ← readGap indent (c.rest.length + 1) ⟨[], false, [], []⟩ c
        if !flow && c.column < indent then return (word, g.broken, c)
        else
          let (more, broken, c) ← plain flow indent fuel g c
          return (word ++ more, broken, c)

/-! ## Blocks -/

/-- What becomes of the line breaks at the end of a block. -/
inductive Chomp where
  | strip
  | clip
  | keep
  deriving DecidableEq

/-- What a chomping mark means. -/
def Chomp.ofMark? : Char → Option Chomp
  | '+' => some .keep
  | '-' => some .strip
  | _ => none

/-- The marks behind the sign of a block, in either order: chomping and depth of indentation. A
    depth of zero is refused; no depth is given as zero. -/
def blockMarks (c : Cursor) : Option (Chomp × Nat × Cursor) :=
  let depth? (c : Cursor) : Option (Nat × Cursor) :=
    match c.rest with
    | x :: _ =>
      if !x.isDigit then some (0, c)
      else if x == '0' then none
      else some (x.toNat - '0'.toNat, c.next)
    | [] => some (0, c)
  let chomp? (c : Cursor) : Option Chomp := c.rest.head?.bind Chomp.ofMark?
  match chomp? c with
  | some chomp => (depth? c.next).map fun (n, c) => (chomp, n, c)
  | none => do
    let (n, c) ← depth? c
    match (if n = 0 then none else chomp? c) with
    | some chomp => return (chomp, n, c.next)
    | none => return (.clip, n, c)

/-- Read indentation and empty lines up to the next line with content. While the depth `indent` is
    not known (zero) all spaces count and the deepest line is remembered; a tab may not stand where
    indentation is expected. -/
def blockBreaks (indent : Nat) : Nat → Nat → List Char → Cursor →
    Option (Nat × List Char × Cursor)
  | 0, _, _, _ => none
  | fuel + 1, deepest, breaks, c =>
    let spaces := (c.rest.takeWhile (· == ' ')).length
    let c := c.advance (if indent = 0 then spaces else min spaces (indent - c.column))
    let deepest := max deepest c.column
    if (indent = 0 || c.column < indent) && c.sees (· == '\t') then none
    else if c.sees isBreak then
      blockBreaks indent fuel deepest (breaks ++ c.lineBreak) c.nextLine
    else some (deepest, breaks, c)

/-- The lines of a block. `last` is the break behind the line read last, `empty` the breaks of the
    empty lines after it, and `further` tells that the line was indented further. Returned are the
    text and the breaks left over at its end. -/
def blockLines (folded : Bool) (indent : Nat) : Nat → Bool → List Char → List Char → Cursor →
    Option (List Char × List Char × List Char × Cursor)
  | 0, _, _, _, _ => none
  | fuel + 1, further, last, empty, c => do
    if c.column != indent || c.rest.isEmpty then return ([], last, empty, c)
    else
      let blank := c.sees isBlank
      let joint :=
        if folded && last.head? == some '\n' && !further && !blank then
          if empty.isEmpty then [' '] else empty
        else last ++ empty
      let line := c.rest.takeWhile (!isBreak ·)
      let c := c.advance line.length
      let last := c.lineBreak
      let c := if c.rest.isEmpty then c else c.nextLine
      let (_, empty, c) ← blockBreaks indent (c.rest.length + 1) 0 [] c
      let (more, last, empty, c) ← blockLines folded indent fuel blank last empty c
      return (joint ++ line ++ more, last, empty, c)

/-- A block scalar whose sign is already taken, inside a collection indented by `parent` columns
    (`-1` outside all collections). -/
def block (folded : Bool) (parent : Int) (c : Cursor) : Option (List Char × Cursor) := do
  let (chomp, depth, c) ← blockMarks c
  let c := c.skipWhile isBlank
  let c := if c.sees (· == '#') then c.skipWhile (!isBreak ·) else c
  if c.rest.isEmpty || c.sees isBreak then
    let c := if c.rest.isEmpty then c else c.nextLine
    let given := if depth = 0 then 0 else (max parent 0).toNat + depth
    let (deepest, empty, c) ← blockBreaks given (c.rest.length + 1) 0 [] c
    let indent := if given = 0 then max deepest (max (parent + 1).toNat 1) else given
    let (text, last, empty, c) ← blockLines folded indent (c.rest.length + 1) false [] empty c
    let ending := match chomp with
      | .strip => []
      | .clip => last
      | .keep => last ++ empty
    return (text ++ ending, c)
  else none

end LSystem.Yaml
