import LSystem.Yaml.Scalar
set_option autoImplicit false

/-! # Tokens of a YAML text

Indentation is turned into tokens that open and close collections, so that the grammar of tokens
needs no columns. A mapping key is recognised only by the colon behind it: each level of nesting
remembers where a key could have begun, and when the colon comes a key token is put in there, in
front of it the start of the mapping if this is its first key. Such a key lies on one line and takes
at most 1024 bytes, its quotes and the blanks behind it included.

Anchors, aliases and tags are not part of what is read here; a text that uses them is refused. Nothing is
proved of the program on the strength of that: there the reader of definitions is a parameter, and may be
one that reads more. -/

namespace LSystem.Yaml

/-- A token. -/
inductive Token where
  /-- `%YAML` with its two version numbers. -/
  | version (major minor : Nat)
  | documentStart
  | documentEnd
  | blockSequenceStart
  | blockMappingStart
  | blockEnd
  | flowSequenceStart
  | flowSequenceEnd
  | flowMappingStart
  | flowMappingEnd
  | blockEntry
  | flowEntry
  | key
  | value
  | scalar (text : String) (plain : Bool)
  deriving DecidableEq, Repr

/-- A place where a key may have begun: the number of tokens in front of it, its position, and
    whether the indentation allows nothing else there. -/
structure PossibleKey where
  token : Nat
  index : Nat
  line : Nat
  column : Nat
  required : Bool

/-- A scan under way. `indent` is the column of the innermost block collection, `-1` outside of all,
    and `indents` are those around it. `keys` holds the possible key of each flow level, the
    innermost first; the last one is that of the block level. -/
structure Scanner where
  cursor : Cursor
  tokens : Array Token
  indent : Int
  indents : List Int
  keyAllowed : Bool
  keys : List (Option PossibleKey)

namespace Scanner

/-- At the start of a text. -/
def start (text : List Char) : Scanner := ⟨.start text, #[], -1, [], true, [none]⟩

/-- Whether the scan is inside brackets. -/
def inFlow (s : Scanner) : Bool := 1 < s.keys.length

/-- Append a token. -/
def emit (s : Scanner) (t : Token) : Scanner := { s with tokens := s.tokens.push t }

/-- Append the token of some characters and go past them. -/
def take (s : Scanner) (n : Nat) (t : Token) : Scanner :=
  { s with tokens := s.tokens.push t, cursor := s.cursor.advance n }

/-! ## Possible keys -/

/-- Drop the possible keys that the scan has left behind; a required one may not be dropped. -/
def dropStale (s : Scanner) : Option Scanner := do
  let fresh (k : Option PossibleKey) : Option (Option PossibleKey) :=
    match k with
    | some k =>
      if k.line < s.cursor.line || k.index + 1024 < s.cursor.index then
        if k.required then none else some none
      else some (some k)
    | none => some none
  return { s with keys := ← s.keys.mapM fresh }

/-- Forget the possible key of this level; a required one may not be forgotten. -/
def forgetKey (s : Scanner) : Option Scanner :=
  match s.keys with
  | some k :: ks => if k.required then none else some { s with keys := none :: ks }
  | _ => some s

/-- Remember this place as a possible key, if one may begin here. -/
def rememberKey (s : Scanner) : Option Scanner := do
  if !s.keyAllowed then return s
  else
    let required := !s.inFlow && s.indent == s.cursor.column
    let k : PossibleKey :=
      ⟨s.tokens.size, s.cursor.index, s.cursor.line, s.cursor.column, required⟩
    let s ← s.forgetKey
    return { s with keys := some k :: s.keys.drop 1 }

/-! ## Indentation -/

/-- Open a block collection at a column to the right of the present one, its token put in at a
    given place. -/
def indentTo (s : Scanner) (column : Nat) (place : Nat) (t : Token) : Scanner :=
  if !s.inFlow && s.indent < column then
    { s with
      indents := s.indent :: s.indents
      indent := column
      tokens := s.tokens.insertIdxIfInBounds place t }
  else s

/-- The columns left open once all to the right of `column` are closed, and their number. -/
def closing (column : Int) : Int → List Int → Nat × Int × List Int
  | indent, [] => (0, indent, [])
  | indent, outer :: rest =>
    if column < indent then
      let (n, indent, rest) := closing column outer rest
      (n + 1, indent, rest)
    else (0, indent, outer :: rest)

/-- Close the block collections to the right of a column. -/
def unindentTo (s : Scanner) (column : Int) : Scanner :=
  if s.inFlow then s
  else
    let (n, indent, indents) := closing column s.indent s.indents
    { s with
      indent
      indents
      tokens := s.tokens ++ (List.replicate n Token.blockEnd).toArray }

/-! ## Between tokens -/

/-- Go past blanks, comments and line breaks. A tab may not stand where a block key may begin, and
    outside brackets a new line may begin with a key. -/
def skipGap : Nat → Scanner → Scanner
  | 0, s => s
  | fuel + 1, s =>
    let c := if s.cursor.column == 0 && s.cursor.sees (· == '\ufeff') then s.cursor.next
      else s.cursor
    let c := c.skipWhile fun x => x == ' ' || ((s.inFlow || !s.keyAllowed) && x == '\t')
    let c := if c.sees (· == '#') then c.skipWhile (!isBreak ·) else c
    if c.sees isBreak then
      skipGap fuel { s with cursor := c.nextLine, keyAllowed := s.keyAllowed || !s.inFlow }
    else { s with cursor := c }

/-! ## The tokens -/

/-- At most nine digits as a number. -/
def versionNumber? (c : Cursor) : Option (Nat × Cursor) :=
  let ds := c.rest.takeWhile Char.isDigit
  if ds.isEmpty || 9 < ds.length then none
  else some (Nat.ofDigitChars 10 ds 0, c.advance ds.length)

/-- A directive: the version of the format, and nothing behind it but a comment. -/
def directive (s : Scanner) : Option Scanner := do
  let s ← (s.unindentTo (-1)).forgetKey
  match s.cursor.rest with
  | '%' :: 'Y' :: 'A' :: 'M' :: 'L' :: x :: _ =>
    if !isBlank x then none
    else
      let (major, c) ← versionNumber? ((s.cursor.advance 5).skipWhile isBlank)
      if !c.sees (· == '.') then none
      else
        let (minor, c) ← versionNumber? c.next
        let c := c.skipWhile isBlank
        let c := if c.sees (· == '#') then c.skipWhile (!isBreak ·) else c
        if !atGap c.rest then none
        else
          let c := if c.rest.isEmpty then c else c.nextLine
          return { s.emit (.version major minor) with keyAllowed := false, cursor := c }
  | _ => none

/-- The mark that starts or ends a document. -/
def documentMark (s : Scanner) (t : Token) : Option Scanner := do
  let s ← (s.unindentTo (-1)).forgetKey
  return { s.take 3 t with keyAllowed := false }

/-- An opening bracket; inside it keys are remembered anew. -/
def open_ (s : Scanner) (t : Token) : Option Scanner := do
  let s ← s.rememberKey
  return { s.take 1 t with keyAllowed := true, keys := none :: s.keys }

/-- A closing bracket. -/
def close (s : Scanner) (t : Token) : Option Scanner := do
  let s ← s.forgetKey
  return { s.take 1 t with
    keyAllowed := false
    keys := if s.inFlow then s.keys.drop 1 else s.keys }

/-- A comma inside brackets. -/
def comma (s : Scanner) : Option Scanner := do
  let s ← s.forgetKey
  return { s.take 1 .flowEntry with keyAllowed := true }

/-- The dash of a sequence item. -/
def dash (s : Scanner) : Option Scanner := do
  if !s.inFlow && !s.keyAllowed then none
  else
    let s ← (s.indentTo s.cursor.column s.tokens.size .blockSequenceStart).forgetKey
    return { s.take 1 .blockEntry with keyAllowed := true }

/-- The question mark in front of a key. -/
def question (s : Scanner) : Option Scanner := do
  if !s.inFlow && !s.keyAllowed then none
  else
    let s ← (s.indentTo s.cursor.column s.tokens.size .blockMappingStart).forgetKey
    return { s.take 1 .key with keyAllowed := !s.inFlow }

/-- The colon behind a key. -/
def colon (s : Scanner) : Option Scanner :=
  match s.keys with
  | some k :: ks =>
    let s := { s with tokens := s.tokens.insertIdxIfInBounds k.token .key, keys := none :: ks }
    let s := s.indentTo k.column k.token .blockMappingStart
    some { s.take 1 .value with keyAllowed := false }
  | _ =>
    if !s.inFlow && !s.keyAllowed then none
    else
      let s := s.indentTo s.cursor.column s.tokens.size .blockMappingStart
      some { s.take 1 .value with keyAllowed := !s.inFlow }

/-- A block scalar; a key may follow it on the next line. -/
def blockScalar (s : Scanner) (folded : Bool) : Option Scanner := do
  let s ← s.forgetKey
  let (text, c) ← block folded s.indent s.cursor.next
  return { s.emit (.scalar (String.ofList text) false) with keyAllowed := true, cursor := c }

/-- A quoted scalar. -/
def quotedScalar (s : Scanner) (single : Bool) : Option Scanner := do
  let s ← s.rememberKey
  let (text, c) ← quoted single (s.cursor.rest.length + 1) s.cursor.next
  return { s.emit (.scalar (String.ofList text) false) with keyAllowed := false, cursor := c }

/-- A plain scalar; a key may follow it if it ended behind a line break. -/
def plainScalar (s : Scanner) : Option Scanner := do
  let s ← s.rememberKey
  let (text, broken, c) ← plain s.inFlow (s.indent + 1).toNat (s.cursor.rest.length + 1)
    ⟨[], false, [], []⟩ s.cursor
  return { s.emit (.scalar (String.ofList text) true) with keyAllowed := broken, cursor := c }

/-- The characters that no plain scalar begins with, whatever follows them. -/
def isIndicator (c : Char) : Bool :=
  c == ',' || c == '[' || c == ']' || c == '{' || c == '}' || c == '#' || c == '&' || c == '*'
    || c == '!' || c == '|' || c == '>' || c == '\x27' || c == '"' || c == '%' || c == '@'
    || c == '\x60'

/-- The next token, from its first character and what follows that. A blank is left in front of a
    token only where it may not stand. -/
def token (s : Scanner) (x : Char) (rest : List Char) : Option Scanner :=
  if s.cursor.column == 0 && x == '%' then s.directive
  else if s.cursor.marks '-' then s.documentMark .documentStart
  else if s.cursor.marks '.' then s.documentMark .documentEnd
  else if x == '[' then s.open_ .flowSequenceStart
  else if x == '{' then s.open_ .flowMappingStart
  else if x == ']' then s.close .flowSequenceEnd
  else if x == '}' then s.close .flowMappingEnd
  else if x == ',' then s.comma
  else if x == '-' && atGap rest then s.dash
  else if x == '?' && (s.inFlow || atGap rest) then s.question
  else if x == ':' && (s.inFlow || atGap rest) then s.colon
  else if x == '|' && !s.inFlow then s.blockScalar false
  else if x == '>' && !s.inFlow then s.blockScalar true
  else if x == '\x27' then s.quotedScalar true
  else if x == '"' then s.quotedScalar false
  else if isIndicator x || isBlank x then none
  else s.plainScalar

/-- All tokens from here on. -/
def run : Nat → Scanner → Option (Array Token)
  | 0, _ => none
  | fuel + 1, s => do
    let s := s.skipGap (s.cursor.rest.length + 1)
    let s ← s.dropStale
    let s := s.unindentTo s.cursor.column
    match s.cursor.rest with
    | [] =>
      let s ← (s.unindentTo (-1)).forgetKey
      return s.tokens
    | x :: rest => run fuel (← s.token x rest)

end Scanner

/-- The tokens of a text. -/
def tokens? (text : List Char) : Option (List Token) :=
  if text.all isAllowed then
    ((Scanner.start text).run (text.length + 2)).map Array.toList
  else none

end LSystem.Yaml
