/-!
Blanks and whole numbers in text.

A character is blank when it has the Unicode property White_Space. The class is wider than the
ASCII blanks (it holds the no-break space and the ideographic space) and leaves out the zero-width
characters, which are not blank. Trimming works on both ends and never touches the inside.

Numbers are ASCII decimal digits. Writing comes in three widths: as many digits as needed
(`decimal`), exactly `w` digits (`fixed`), and at least `w` digits (`padded`). Reading takes a digit
string to its value; `spanDigits` cuts the leading digits off a text, no more than a given number of
them.
-/

namespace WallCalendar.Text

/-! ### Blanks -/

/-- The code points with the property White_Space, as closed ranges in ascending order. -/
def blankRanges : List (Nat × Nat) :=
  [(0x0009, 0x000D), (0x0020, 0x0020), (0x0085, 0x0085), (0x00A0, 0x00A0), (0x1680, 0x1680),
    (0x2000, 0x200A), (0x2028, 0x2029), (0x202F, 0x202F), (0x205F, 0x205F), (0x3000, 0x3000)]

/-- Whether a code point lies in one of the closed ranges. -/
def inRanges (ranges : List (Nat × Nat)) (n : Nat) : Bool :=
  ranges.any fun r => r.1 ≤ n && n ≤ r.2

/-- Whether `c` is a blank. -/
def isBlank (c : Char) : Bool := inRanges blankRanges c.toNat

/-- `cs` without its leading blanks. -/
def skipBlanks (cs : List Char) : List Char := cs.dropWhile isBlank

/-- `cs` without its leading and trailing blanks. -/
def trimChars (cs : List Char) : List Char := (skipBlanks (skipBlanks cs).reverse).reverse

/-- `s` without its leading and trailing blanks. -/
def trim (s : String) : String := String.ofList (trimChars s.toList)

/-- Whether `s` holds nothing but blanks. -/
def isBlankText (s : String) : Bool := s.toList.all isBlank

/-- A text that is blank counts as no text. -/
def nonBlank (s : String) : Option String := if isBlankText s then none else some s

/-! ### Writing numbers -/

/-- The ASCII digit of `d`, for `d` below ten. -/
def digitChar (d : Nat) : Char := Char.ofNat (0x30 + d)

/-- The digits of `n`, without leading zeros. -/
def decimal (n : Nat) : List Char :=
  if n < 10 then [digitChar n] else decimal (n / 10) ++ [digitChar (n % 10)]
termination_by n
decreasing_by omega

/-- The last `w` digits of `n`, zeros in front if it has fewer. -/
def fixed : Nat → Nat → List Char
  | 0, _ => []
  | w + 1, n => fixed w (n / 10) ++ [digitChar (n % 10)]

/-- The digits of `n`, at least `w` of them. -/
def padded (w n : Nat) : List Char := if n < Nat.pow 10 w then fixed w n else decimal n

/-- `n` with a minus sign if it is negative. -/
def integer (n : Int) : List Char :=
  if n < 0 then '-' :: decimal n.natAbs else decimal n.natAbs

/-- The text of a natural number. -/
def natText (n : Nat) : String := String.ofList (decimal n)

/-- The text of an integer. -/
def intText (n : Int) : String := String.ofList (integer n)

/-! ### Reading numbers -/

/-- The value of an ASCII digit. -/
def digitValue (c : Char) : Nat := c.toNat - 0x30

/-- The value of a digit string, the empty one being zero. -/
def digitsValue (ds : List Char) : Nat := ds.foldl (fun n c => 10 * n + digitValue c) 0

/-- The leading ASCII digits of `cs`, at most `most` of them, and what follows. -/
def spanDigits : Nat → List Char → List Char × List Char
  | 0, cs => ([], cs)
  | _, [] => ([], [])
  | most + 1, c :: cs =>
    if c.isDigit then
      let (ds, rest) := spanDigits most cs
      (c :: ds, rest)
    else ([], c :: cs)

/-- All leading ASCII digits of `cs`, and what follows. -/
def spanAllDigits (cs : List Char) : List Char × List Char :=
  (cs.takeWhile Char.isDigit, cs.dropWhile Char.isDigit)

theorem length_spanAllDigits (cs : List Char) :
    (spanAllDigits cs).1.length + (spanAllDigits cs).2.length = cs.length := by
  rw [← List.length_append]
  exact congrArg List.length List.takeWhile_append_dropWhile

/-- A digit string with at least one digit and nothing else. -/
def readNat? (cs : List Char) : Option Nat :=
  if cs ≠ [] ∧ cs.all Char.isDigit then some (digitsValue cs) else none

/-- A digit string with an optional plus or minus sign. -/
def readInt? : List Char → Option Int
  | '+' :: cs => (readNat? cs).map fun n => (n : Int)
  | '-' :: cs => (readNat? cs).map fun n => -(n : Int)
  | cs => (readNat? cs).map fun n => (n : Int)

end WallCalendar.Text
