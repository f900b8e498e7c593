import LSystem.Json.Basic
set_option autoImplicit false

/-! # Reading JSON

The reader accepts the standard grammar and nothing else: no leading zeros, no comma at the end, no
raw control characters in strings. It takes what it reads off the front of the text and returns the
rest, and it is driven by a count that bounds its steps, of which the length of the text is enough.

A `\u` escape may name half of a surrogate pair. Two halves in a row make one character; a single
half is no character and is read as U+FFFD, except in a key that is asked for as text. -/

namespace LSystem.Json.Reader

/-- White space between tokens. -/
def isBlank (c : Char) : Bool := c == ' ' || c == '\n' || c == '\t' || c == '\r'

/-- The text without the white space in front. -/
def skip (s : List Char) : List Char := s.dropWhile isBlank

/-! ## Strings -/

/-- The value of a hexadecimal digit. -/
def hexDigit? (c : Char) : Option Nat :=
  if '0' ≤ c ∧ c ≤ '9' then some (c.toNat - '0'.toNat)
  else if 'a' ≤ c ∧ c ≤ 'f' then some (c.toNat - 'a'.toNat + 10)
  else if 'A' ≤ c ∧ c ≤ 'F' then some (c.toNat - 'A'.toNat + 10)
  else none

/-- The number of four hexadecimal digits. -/
def hex4? : List Char → Option (Nat × List Char)
  | a :: b :: c :: d :: rest => do
    let a ← hexDigit? a
    let b ← hexDigit? b
    let c ← hexDigit? c
    let d ← hexDigit? d
    return (((a * 16 + b) * 16 + c) * 16 + d, rest)
  | _ => none

/-- The character of a one-letter escape. -/
def plainEscape? : Char → Option Char
  | '"' => some '"'
  | '\\' => some '\\'
  | '/' => some '/'
  | 'b' => some '\x08'
  | 'f' => some '\x0c'
  | 'n' => some '\n'
  | 'r' => some '\r'
  | 't' => some '\t'
  | _ => none

/-- What a string is made of: characters, and the 16-bit units of `\u` escapes. -/
inductive Piece where
  | char (c : Char)
  | unit (n : Nat)

/-- The pieces of a string whose opening quote is already taken. -/
def pieces? : Nat → List Char → Option (List Piece × List Char)
  | 0, _ => none
  | _ + 1, [] => none
  | fuel + 1, c :: s =>
    if c == '"' then some ([], s)
    else if c == '\\' then
      match s with
      | 'u' :: s => do
        let (n, s) ← hex4? s
        let (ps, s) ← pieces? fuel s
        return (.unit n :: ps, s)
      | e :: s => do
        let c ← plainEscape? e
        let (ps, s) ← pieces? fuel s
        return (.char c :: ps, s)
      | [] => none
    else if c.toNat < 32 then none
    else do
      let (ps, s) ← pieces? fuel s
      return (.char c :: ps, s)

/-- The characters of the pieces, with `half` in place of a half without its other half. -/
def assemble (half : Option Char) : List Piece → Option (List Char)
  | [] => some []
  | .char c :: ps => (assemble half ps).map (c :: ·)
  | .unit hi :: .unit lo :: ps =>
    if 0xd800 ≤ hi ∧ hi < 0xdc00 ∧ 0xdc00 ≤ lo ∧ lo < 0xe000 then
      (assemble half ps).map (Char.ofNat (0x10000 + (hi - 0xd800) * 1024 + (lo - 0xdc00)) :: ·)
    else do
      let c ← if 0xd800 ≤ hi ∧ hi < 0xe000 then half else some (Char.ofNat hi)
      return c :: (← assemble half (.unit lo :: ps))
  | .unit n :: ps => do
    let c ← if 0xd800 ≤ n ∧ n < 0xe000 then half else some (Char.ofNat n)
    return c :: (← assemble half ps)

/-- A string whose opening quote is already taken. -/
def string? (half : Option Char) (s : List Char) : Option (String × List Char) := do
  let (ps, s) ← pieces? (s.length + 1) s
  return (String.ofList (← assemble half ps), s)

/-! ## Numbers -/

/-- At least one digit. -/
def digits? (s : List Char) : Option (List Char × List Char) :=
  let ds := s.takeWhile Char.isDigit
  if ds.isEmpty then none else some (ds, s.dropWhile Char.isDigit)

/-- The minus sign in front of a number, if there is one. -/
def sign : List Char → Bool × List Char
  | '-' :: s => (true, s)
  | s => (false, s)

/-- The digits in front of the point; a zero stands alone. -/
def whole? : List Char → Option (List Char × List Char)
  | '0' :: s => if (s.head?.map Char.isDigit).getD false then none else some (['0'], s)
  | s => digits? s

/-- The digits behind the point, if there is one. -/
def fraction? : List Char → Option (List Char × List Char)
  | '.' :: s => digits? s
  | s => some ([], s)

/-- The sign of a power of ten, which may be a plus. -/
def exponentSign : List Char → Bool × List Char
  | '+' :: s => (false, s)
  | s => sign s

/-- The power of ten behind the letter `e`. -/
def exponent? (s : List Char) : Option (Int × List Char) := do
  let (negative, s) := exponentSign s
  let (ds, s) ← digits? s
  let n : Int := Nat.ofDigitChars 10 ds 0
  return (if negative then -n else n, s)

/-- The power of ten, if there is one. -/
def power? : List Char → Option (Option Int × List Char)
  | 'e' :: s => (exponent? s).map fun (e, s) => (some e, s)
  | 'E' :: s => (exponent? s).map fun (e, s) => (some e, s)
  | s => some (none, s)

/-- A number, up to the first character that does not belong to it. -/
def numeral? (s : List Char) : Option (Numeral × List Char) := do
  let (negative, s) := sign s
  let (whole, s) ← whole? s
  let (fraction, s) ← fraction? s
  let (exponent, s) ← power? s
  return (⟨negative, whole, fraction, exponent⟩, s)

/-! ## Values -/

/-- The text behind a fixed word. -/
def word? : List Char → List Char → Option (List Char)
  | [], s => some s
  | _ :: _, [] => none
  | w :: ws, c :: s => if w == c then word? ws s else none

mutual

/-- A value, with white space in front. -/
def value? : Nat → List Char → Option (Json × List Char)
  | 0, _ => none
  | fuel + 1, s =>
    match skip s with
    | 'n' :: s => (word? ['u', 'l', 'l'] s).map (Json.null, ·)
    | 't' :: s => (word? ['r', 'u', 'e'] s).map (Json.bool true, ·)
    | 'f' :: s => (word? ['a', 'l', 's', 'e'] s).map (Json.bool false, ·)
    | '"' :: s => (string? (some '\ufffd') s).map fun (t, s) => (.string t, s)
    | '[' :: s => (items? fuel s).map fun (js, s) => (.array js, s)
    | '{' :: s => (members? fuel (some '\ufffd') s).map fun (ms, s) => (.object ms, s)
    | s => (numeral? s).map fun (n, s) => (.number n, s)

/-- The items of an array whose bracket is already taken. -/
def items? : Nat → List Char → Option (List Json × List Char)
  | 0, _ => none
  | fuel + 1, s =>
    match skip s with
    | ']' :: s => some ([], s)
    | s => do
      let (j, s) ← value? fuel s
      let (js, s) ← moreItems? fuel s
      return (j :: js, s)

/-- The items of an array after one of them. -/
def moreItems? : Nat → List Char → Option (List Json × List Char)
  | 0, _ => none
  | fuel + 1, s =>
    match skip s with
    | ']' :: s => some ([], s)
    | ',' :: s => do
      let (j, s) ← value? fuel s
      let (js, s) ← moreItems? fuel s
      return (j :: js, s)
    | _ => none

/-- A key and its value. -/
def member? : Nat → Option Char → List Char → Option ((String × Json) × List Char)
  | 0, _, _ => none
  | fuel + 1, half, s =>
    match skip s with
    | '"' :: s => do
      let (key, s) ← string? half s
      match skip s with
      | ':' :: s => do
        let (j, s) ← value? fuel s
        return ((key, j), s)
      | _ => none
    | _ => none

/-- The members of an object whose brace is already taken. -/
def members? : Nat → Option Char → List Char → Option (List (String × Json) × List Char)
  | 0, _, _ => none
  | fuel + 1, half, s =>
    match skip s with
    | '}' :: s => some ([], s)
    | s => do
      let (m, s) ← member? fuel half s
      let (ms, s) ← moreMembers? fuel half s
      return (m :: ms, s)

/-- The members of an object after one of them. -/
def moreMembers? : Nat → Option Char → List Char → Option (List (String × Json) × List Char)
  | 0, _, _ => none
  | fuel + 1, half, s =>
    match skip s with
    | '}' :: s => some ([], s)
    | ',' :: s => do
      let (m, s) ← member? fuel half s
      let (ms, s) ← moreMembers? fuel half s
      return (m :: ms, s)
    | _ => none

end

/-- A whole text as one value. -/
def read? (text : String) : Option Json := do
  let s := text.toList
  let (j, rest) ← value? (2 * s.length + 2) s
  if (skip rest).isEmpty then some j else none

end LSystem.Json.Reader
