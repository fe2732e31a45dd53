import WallCalendar.Text.Basic

/-!
Offsets from UTC.

An offset is a number of seconds east of UTC, less than a day either way. It is written as a sign,
two digits of hours and two digits of minutes, the two parted by any run of colons and blanks. The
sign may be the typographic minus. `scan` reads an offset off the front of a text; `parse` reads a
whole setting, where a zone may also be named `Z` or `UTC` and whatever follows the minutes is
ignored.
-/

namespace WallCalendar

/-- Seconds east of UTC, less than a day either way. -/
structure Offset where
  seconds : Int
  lower : -86400 < seconds
  upper : seconds < 86400
  deriving DecidableEq, Repr

namespace Offset

/-- The offset of UTC itself. -/
def utc : Offset := ⟨0, by decide, by decide⟩

/-- The offset of `n` seconds, unless that is a day or more. -/
def ofSeconds? (n : Int) : Option Offset :=
  if h : -86400 < n ∧ n < 86400 then some ⟨n, h.1, h.2⟩ else none

/-- Splits a sign off: `1` or `-1` and what follows it. -/
def scanSign : List Char → Option (Int × List Char)
  | '+' :: cs => some (1, cs)
  | '-' :: cs => some (-1, cs)
  | '\u2212' :: cs => some (-1, cs)
  | _ => none

/-- Splits two digits off: their value and what follows them. -/
def scanPair : List Char → Option (Nat × List Char)
  | c :: d :: cs =>
    if c.isDigit && d.isDigit then some (10 * Text.digitValue c + Text.digitValue d, cs) else none
  | _ => none

/-- Whether `c` may stand between hours and minutes. -/
def isSeparator (c : Char) : Bool := c == ':' || Text.isBlank c

/-- Reads sign, hours and minutes off the front of a text. The minutes are required. -/
def scan (cs : List Char) : Option (Offset × List Char) := do
  let (sign, cs) ← scanSign cs
  let (hours, cs) ← scanPair cs
  let (minutes, cs) ← scanPair (cs.dropWhile isSeparator)
  if minutes < 60 then
    let offset ← ofSeconds? (sign * (3600 * hours + 60 * minutes))
    return (offset, cs)
  else none

/-- Whether the text names UTC, in letters of either case. -/
def namesUtc (cs : List Char) : Bool :=
  let lower := cs.map Char.toLower
  lower == ['z'] || lower == ['u', 't', 'c']

/-- Reads an offset setting. Blanks around it do not count, nor does anything after the minutes. -/
def parse (s : String) : Option Offset :=
  let cs := Text.trimChars s.toList
  if namesUtc cs then some utc else (scan cs).map Prod.fst

end Offset

end WallCalendar
