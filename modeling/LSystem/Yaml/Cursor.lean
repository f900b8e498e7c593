set_option autoImplicit false

/-! # Characters and positions of a YAML text

Blanks, line breaks and the end of the text are what most rules of the format look out for, so they
have names of their own. A cursor is the rest of a text with its position: the number of bytes in
front of it, its line and its column, which counts characters. A carriage return and a line feed
together are one break; the line and paragraph separators are breaks that keep their character. -/

namespace LSystem.Yaml

/-- A space or a tab. -/
def isBlank (c : Char) : Bool := c == ' ' || c == '\t'

/-- A character that ends a line. -/
def isBreak (c : Char) : Bool :=
  c == '\n' || c == '\r' || c == '\u0085' || c == '\u2028' || c == '\u2029'

/-- Whether a text is at a blank, a break or its end. -/
def atGap : List Char → Bool
  | [] => true
  | c :: _ => isBlank c || isBreak c

/-- The characters that a text may hold at all. -/
def isAllowed (c : Char) : Bool :=
  let n := c.toNat
  n == 0x09 || n == 0x0a || n == 0x0d || (0x20 ≤ n && n ≤ 0x7e) || n == 0x85
    || (0xa0 ≤ n && n ≤ 0xd7ff) || (0xe000 ≤ n && n ≤ 0xfffd) || 0x10000 ≤ n

/-- The number of bytes that some characters take. -/
def byteCount (cs : List Char) : Nat := cs.foldr (fun c n => c.utf8Size + n) 0

/-- A place in a text. -/
structure Cursor where
  rest : List Char
  index : Nat
  line : Nat
  column : Nat

namespace Cursor

/-- The start of a text. -/
def start (text : List Char) : Cursor := ⟨text, 0, 0, 0⟩

/-- Past some characters of a line. -/
def advance (c : Cursor) (n : Nat) : Cursor :=
  ⟨c.rest.drop n, c.index + byteCount (c.rest.take n), c.line, c.column + n⟩

/-- Past one character of a line. -/
def next (c : Cursor) : Cursor := c.advance 1

/-- Past a line break. -/
def nextLine (c : Cursor) : Cursor :=
  match c.rest with
  | '\r' :: '\n' :: rest => ⟨rest, c.index + 2, c.line + 1, 0⟩
  | rest => ⟨rest.drop 1, c.index + byteCount (rest.take 1), c.line + 1, 0⟩

/-- Whether the next character passes a test; false at the end. -/
def sees (c : Cursor) (p : Char → Bool) : Bool :=
  match c.rest with
  | [] => false
  | x :: _ => p x

/-- What a line break stands for in a scalar. -/
def lineBreak (c : Cursor) : List Char :=
  match c.rest with
  | x :: _ =>
    if x == '\u2028' || x == '\u2029' then [x] else if isBreak x then ['\n'] else []
  | [] => []

/-- Past the characters of a line that pass a test. -/
def skipWhile (c : Cursor) (p : Char → Bool) : Cursor :=
  c.advance (c.rest.takeWhile p).length

/-- Whether a line begins here with three given characters and a gap behind them. -/
def marks (c : Cursor) (mark : Char) : Bool :=
  c.column == 0 && match c.rest with
    | x :: y :: z :: rest => x == mark && y == mark && z == mark && atGap rest
    | _ => false

/-- Whether a document starts or ends here. -/
def atDocumentMark (c : Cursor) : Bool := c.marks '-' || c.marks '.'

end Cursor

end LSystem.Yaml
