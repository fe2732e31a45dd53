import WallCalendar.Text.Quoted

/-!
JSON values and the text they are written as.

A value is written over several lines, each level of nesting two blanks further in; lists and
objects without content stay on one line. Of the characters of a string only quote, backslash and
the controls below the blank are escaped.
-/

namespace WallCalendar.Json

open WallCalendar.Text

/-- A value to be written. Objects keep the order of their fields. -/
inductive Value where
  | null
  | bool (b : Bool)
  | integer (n : Int)
  | text (s : String)
  | list (items : List Value)
  | object (fields : List (String × Value))
  deriving Repr

/-- A text, or null if there is none. -/
def Value.ofText? : Option String → Value
  | some s => .text s
  | none => .null

/-- A character as it stands in a string. -/
def escapeChar (c : Char) : List Char :=
  match c with
  | '\"' => ['\\', '\"']
  | '\\' => ['\\', '\\']
  | '\x08' => ['\\', 'b']
  | '\x0c' => ['\\', 'f']
  | '\n' => ['\\', 'n']
  | '\r' => ['\\', 'r']
  | '\t' => ['\\', 't']
  | c =>
    if c.toNat < 0x20 then
      ['\\', 'u', '0', '0', hexChar (c.toNat / 16), hexChar (c.toNat % 16)]
    else [c]

/-- A string between quotes. -/
def stringChars (s : String) : List Char := '\"' :: s.toList.flatMap escapeChar ++ ['\"']

/-- The start of a line at some depth. -/
def lineChars (depth : Nat) : List Char := '\n' :: List.replicate (2 * depth) ' '

mutual

/-- The characters of a value whose lines start at `depth`. -/
def Value.chars (depth : Nat) : Value → List Char
  | .null => ['n', 'u', 'l', 'l']
  | .bool true => ['t', 'r', 'u', 'e']
  | .bool false => ['f', 'a', 'l', 's', 'e']
  | .integer n => Text.integer n
  | .text s => stringChars s
  | .list [] => ['[', ']']
  | .list (item :: items) =>
    '[' :: lineChars (depth + 1) ++ item.chars (depth + 1) ++ itemChars (depth + 1) items ++
      lineChars depth ++ [']']
  | .object [] => ['\x7b', '\x7d']
  | .object ((key, value) :: fields) =>
    '\x7b' :: lineChars (depth + 1) ++ stringChars key ++ [':', ' '] ++ value.chars (depth + 1) ++
      fieldChars (depth + 1) fields ++ lineChars depth ++ ['\x7d']

/-- The items of a list after the first, each on its line. -/
def itemChars (depth : Nat) : List Value → List Char
  | [] => []
  | item :: items => ',' :: lineChars depth ++ item.chars depth ++ itemChars depth items

/-- The fields of an object after the first, each on its line. -/
def fieldChars (depth : Nat) : List (String × Value) → List Char
  | [] => []
  | (key, value) :: fields =>
    ',' :: lineChars depth ++ stringChars key ++ [':', ' '] ++ value.chars depth ++
      fieldChars depth fields

end

/-- The text of a value. -/
def Value.pretty (v : Value) : String := String.ofList (v.chars 0)

end WallCalendar.Json
