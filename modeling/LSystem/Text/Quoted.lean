import LSystem.Text.Unseen
set_option autoImplicit false

/-! # Quoted text

A text is shown in double quotes, on one line and so that nothing of it is hidden: the quote, the
backslash and the common controls have short escapes, and any other character that does not show by
itself is written as its code point. Whatever shows stands for itself. -/

namespace LSystem.Text

/-- A code point in hexadecimal digits. -/
def codePointEscape (c : Char) : List Char :=
  ['\\', 'u', '\x7b'] ++ Nat.toDigits 16 c.toNat ++ ['\x7d']

/-- A character as it is shown between quotes. -/
def quoteChar (c : Char) : List Char :=
  if c == '\x00' then ['\\', '0']
  else if c == '\t' then ['\\', 't']
  else if c == '\r' then ['\\', 'r']
  else if c == '\n' then ['\\', 'n']
  else if c == '"' || c == '\\' then ['\\', c]
  else if CharSet.unseen.contains c then codePointEscape c
  else [c]

/-- A text in quotes. -/
def quoted (text : String) : String :=
  String.ofList ('"' :: text.toList.flatMap quoteChar ++ ['"'])

end LSystem.Text
