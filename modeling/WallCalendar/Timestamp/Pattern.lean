import WallCalendar.Moment

/-!
Patterns: the ways a timestamp may be written.

A pattern is a list of items read from left to right; it accepts a text when the items use the text
up. Number items are lenient: blanks may stand before the digits and leading zeros may be missing. A
year has at most four digits unless it is signed, and then any number of them. Reading fills in
`Fields`; only afterwards is it checked that the calendar has such a day and the clock such a time.
-/

namespace WallCalendar.Timestamp

open WallCalendar.Text

/-- One part of a pattern. -/
inductive Item where
  | literal (c : Char)
  | year
  | month
  | day
  | hour
  | minute
  | second
  | fraction
  | offset
  deriving DecidableEq, Repr

/-- What a text says, before it is checked against calendar and clock. -/
structure Fields where
  year : Int := 0
  month : Nat := 1
  day : Nat := 1
  hour : Nat := 0
  minute : Nat := 0
  second : Nat := 0
  nanos : Nat := 0
  offset : Offset := .utc
  deriving DecidableEq, Repr

namespace Fields

/-- The date, if the calendar has it. -/
def date? (f : Fields) : Option Date := Date.ofCivil? ⟨f.year, f.month, f.day⟩

/-- The time of day, if the clock shows it. A second numbered 60 is a leap second. -/
def time? (f : Fields) : Option TimeOfDay :=
  if f.second = 60 then TimeOfDay.ofClock? f.hour f.minute 59 (1000000000 + f.nanos)
  else TimeOfDay.ofClock? f.hour f.minute f.second f.nanos

/-- Date and time of day as written. -/
def moment? (f : Fields) : Option Moment := do
  let date ← f.date?
  let time ← f.time?
  return ⟨date, time⟩

/-- The moment in UTC: what is written, less the offset. -/
def instant? (f : Fields) : Option Moment := f.moment?.bind (·.shift? (-f.offset.seconds))

end Fields

/-! ### Reading one item -/

/-- The value of a run of digits that is not empty, and what follows it. -/
def valueOfDigits : List Char × List Char → Option (Nat × List Char)
  | ([], _) => none
  | (digits, rest) => some (digitsValue digits, rest)

/-- A number of at most two digits, blanks allowed before it. -/
def scanNumber (cs : List Char) : Option (Nat × List Char) :=
  valueOfDigits (spanDigits 2 (skipBlanks cs))

/-- A year: four digits at most, or a sign and any number of digits. -/
def scanYear (cs : List Char) : Option (Int × List Char) :=
  match skipBlanks cs with
  | '-' :: rest => (valueOfDigits (spanAllDigits rest)).map fun (n, rest) => (-(n : Int), rest)
  | '+' :: rest => (valueOfDigits (spanAllDigits rest)).map fun (n, rest) => ((n : Int), rest)
  | rest => (valueOfDigits (spanDigits 4 rest)).map fun (n, rest) => ((n : Int), rest)

/-- A fraction of a second in nanoseconds, if a point follows; digits after the ninth are
dropped. -/
def scanFraction : List Char → Option (Nat × List Char)
  | '.' :: rest =>
    let (digits, rest) := spanAllDigits rest
    if digits.isEmpty then none
    else
      let kept := digits.take 9
      some (digitsValue kept * Nat.pow 10 (9 - kept.length), rest)
  | cs => some (0, cs)

/-- Reads one item off the front of a text. -/
def Item.scan (item : Item) (f : Fields) (cs : List Char) : Option (Fields × List Char) :=
  match item with
  | .literal c =>
    match cs with
    | d :: rest => if d = c then some (f, rest) else none
    | [] => none
  | .year => (scanYear cs).map fun (n, rest) => ({ f with year := n }, rest)
  | .month => (scanNumber cs).map fun (n, rest) => ({ f with month := n }, rest)
  | .day => (scanNumber cs).map fun (n, rest) => ({ f with day := n }, rest)
  | .hour => (scanNumber cs).map fun (n, rest) => ({ f with hour := n }, rest)
  | .minute => (scanNumber cs).map fun (n, rest) => ({ f with minute := n }, rest)
  | .second => (scanNumber cs).map fun (n, rest) => ({ f with second := n }, rest)
  | .fraction => (scanFraction cs).map fun (n, rest) => ({ f with nanos := n }, rest)
  | .offset => (Offset.scan (skipBlanks cs)).map fun (o, rest) => ({ f with offset := o }, rest)

/-! ### Patterns -/

/-- The items of a timestamp in order. -/
abbrev Pattern := List Item

/-- Reads items off the front of a text. -/
def Pattern.scan : Pattern → Fields → List Char → Option (Fields × List Char)
  | [], f, cs => some (f, cs)
  | item :: items, f, cs => (item.scan f cs).bind fun (f, rest) => Pattern.scan items f rest

/-- Reads a whole text; nothing may be left over. -/
def Pattern.read (p : Pattern) (cs : List Char) : Option Fields :=
  match p.scan {} cs with
  | some (f, []) => some f
  | _ => none

/-- The date a text names under `p`. -/
def Pattern.date? (p : Pattern) (cs : List Char) : Option Date := (p.read cs).bind Fields.date?

/-- The local moment a text names under `p`. -/
def Pattern.moment? (p : Pattern) (cs : List Char) : Option Moment :=
  (p.read cs).bind Fields.moment?

/-- The moment in UTC a text names under `p`. -/
def Pattern.instant? (p : Pattern) (cs : List Char) : Option Moment :=
  (p.read cs).bind Fields.instant?

end WallCalendar.Timestamp
