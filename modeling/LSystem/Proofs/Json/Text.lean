import LSystem.Json.Basic
set_option autoImplicit false

/-! # The text of a value is made of the texts of its parts

The printer writes a value behind what it has written so far. What it adds does not depend on that
(`toList_write`), so the text of a value can be given by itself: that of an array is made of those of its
items, with a comma and a gap in front of each but the first, and that of an object likewise. -/

namespace LSystem.Json

/-! ## The text of a value -/

/-- The characters of a value at some depth. -/
def chars (l : Layout) (depth : Nat) (j : Json) : List Char := (write l depth "" j).toList

/-- What is written of the items of an array after its first. -/
def itemChars (l : Layout) (depth : Nat) (js : List Json) : List Char :=
  js.flatMap fun j => ',' :: ((l.gap depth).toList ++ chars l depth j)

/-- A key and its value. -/
def memberChars (l : Layout) (depth : Nat) (m : String × Json) : List Char :=
  (quote m.1).toList ++ (l.colon.toList ++ chars l depth m.2)

/-- What is written of the members of an object after its first. -/
def membersChars (l : Layout) (depth : Nat) (ms : List (String × Json)) : List Char :=
  ms.flatMap fun m => ',' :: ((l.gap depth).toList ++ memberChars l depth m)

mutual

/-- A value is written behind what is there. -/
theorem toList_write (l : Layout) (depth : Nat) (out : String) :
    (j : Json) → (write l depth out j).toList = out.toList ++ chars l depth j
  | .null => by simp [chars, write]
  | .bool true => by simp [chars, write]
  | .bool false => by simp [chars, write]
  | .number n => by simp [chars, write]
  | .string s => by simp [chars, write]
  | .array [] => by simp [chars, write]
  | .array (j :: js) => by
    rw [chars]
    simp only [write, String.toList_append, toList_writeItems l _ _ js, toList_write l _ _ j]
    simp
  | .object [] => by simp [chars, write]
  | .object (m :: ms) => by
    rw [chars]
    simp only [write, String.toList_append, toList_writeMembers l _ _ ms, toList_writeMember l _ _ m]
    simp

theorem toList_writeItems (l : Layout) (depth : Nat) (out : String) :
    (js : List Json) → (writeItems l depth out js).toList = out.toList ++ itemChars l depth js
  | [] => by simp [writeItems, itemChars]
  | j :: js => by
    simp only [writeItems, toList_writeItems l _ _ js, toList_write l _ _ j]
    simp [itemChars]

theorem toList_writeMember (l : Layout) (depth : Nat) (out : String) :
    (m : String × Json) → (writeMember l depth out m).toList = out.toList ++ memberChars l depth m
  | (key, j) => by
    simp only [writeMember, toList_write l _ _ j]
    simp [memberChars]

theorem toList_writeMembers (l : Layout) (depth : Nat) (out : String) :
    (ms : List (String × Json)) →
      (writeMembers l depth out ms).toList = out.toList ++ membersChars l depth ms
  | [] => by simp [writeMembers, membersChars]
  | m :: ms => by
    simp only [writeMembers, toList_writeMembers l _ _ ms, toList_writeMember l _ _ m]
    simp [membersChars]

end

theorem chars_array (l : Layout) (depth : Nat) (j : Json) (js : List Json) :
    chars l depth (.array (j :: js)) = '[' :: ((l.gap (depth + 1)).toList ++ (chars l (depth + 1) j
      ++ (itemChars l (depth + 1) js ++ ((l.gap depth).toList ++ [']'])))) := by
  rw [chars]
  simp [write, toList_writeItems, toList_write]

theorem chars_object (l : Layout) (depth : Nat) (m : String × Json) (ms : List (String × Json)) :
    chars l depth (.object (m :: ms)) = '\x7b' :: ((l.gap (depth + 1)).toList
      ++ (memberChars l (depth + 1) m
        ++ (membersChars l (depth + 1) ms ++ ((l.gap depth).toList ++ ['\x7d'])))) := by
  rw [chars]
  simp [write, toList_writeMembers, toList_writeMember]

end LSystem.Json
