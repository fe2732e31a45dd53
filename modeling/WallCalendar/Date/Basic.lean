/-!
Days of the proleptic Gregorian calendar.

A date is a day number: day 1 is January 1 of year 1, a Monday, so the Sundays are the multiples of
seven. Only the days of the years -262143 to 262142 can be represented, and every `Date` carries the
proof that it is one of them. Year, month and day of the month (`Civil`) are computed from the
number and lead back to it.
-/

namespace WallCalendar

/-! ### Years and months -/

/-- Whether `year` has a February 29. -/
def isLeapYear (year : Int) : Bool :=
  year % 4 == 0 && (year % 100 != 0 || year % 400 == 0)

/-- The day number of January 1 of `year`: the days of the years before it, plus one. -/
def newYear (year : Int) : Int :=
  365 * (year - 1) + (year - 1) / 4 - (year - 1) / 100 + (year - 1) / 400 + 1

/-- The lengths of the twelve months. -/
def monthLengths (leap : Bool) : List Nat :=
  [31, if leap then 29 else 28, 31, 30, 31, 30, 31, 31, 30, 31, 30, 31]

/-- The year that holds day `n`. Four hundred years have 146097 days, so the first guess is off by
one year at most. -/
def yearOf (n : Int) : Int :=
  let guess := 400 * n / 146097 + 1
  if n < newYear guess then guess - 1
  else if newYear (guess + 1) ≤ n then guess + 1
  else guess

/-- Cuts `d` days off a list of month lengths: the months that lie wholly before day `d`, and the
days left over. -/
def splitMonths : List Nat → Nat → Nat × Nat
  | [], d => (0, d)
  | n :: ns, d =>
    if d < n then (0, d)
    else
      let (months, rest) := splitMonths ns (d - n)
      (months + 1, rest)

/-! ### Civil dates -/

/-- A date by year, month and day of the month, both counted from one. -/
structure Civil where
  year : Int
  month : Nat
  day : Nat
  deriving DecidableEq, Repr

namespace Civil

/-- The length of the month of `c`, zero if there is no such month. -/
def monthLength (c : Civil) : Nat :=
  if c.month = 0 then 0 else ((monthLengths (isLeapYear c.year))[c.month - 1]?).getD 0

/-- Whether the calendar has the day `c`. -/
def IsValid (c : Civil) : Prop := 1 ≤ c.day ∧ c.day ≤ c.monthLength

instance (c : Civil) : Decidable c.IsValid := inferInstanceAs (Decidable (_ ∧ _))

/-- The day number of `c`. -/
def number (c : Civil) : Int :=
  let months := (monthLengths (isLeapYear c.year)).take (c.month - 1)
  let before : Nat := months.foldl (· + ·) 0
  newYear c.year + before + c.day - 1

/-- The civil date of day `n`. -/
def ofNumber (n : Int) : Civil :=
  let year := yearOf n
  let (months, days) := splitMonths (monthLengths (isLeapYear year)) (n - newYear year).toNat
  ⟨year, months + 1, days + 1⟩

end Civil

/-! ### Dates -/

/-- The number of the first representable day, January 1 of -262143. -/
def firstDay : Int := newYear (-262143)

/-- The number of the last representable day, December 31 of 262142. -/
def lastDay : Int := newYear 262143 - 1

/-- A representable day. -/
structure Date where
  number : Int
  first_le : firstDay ≤ number
  le_last : number ≤ lastDay
  deriving DecidableEq, Repr

namespace Date

/-- The day numbered `n`, if it is representable. -/
def ofNumber? (n : Int) : Option Date :=
  if h : firstDay ≤ n ∧ n ≤ lastDay then some ⟨n, h.1, h.2⟩ else none

/-- The day `c`, if the calendar has it and it is representable. -/
def ofCivil? (c : Civil) : Option Date := if c.IsValid then ofNumber? c.number else none

/-- Year, month and day of the month. -/
def civil (d : Date) : Civil := Civil.ofNumber d.number

/-- The year of a date. -/
def year (d : Date) : Int := d.civil.year

/-- The weekday, counted from Sunday as zero. -/
def weekday (d : Date) : Nat := (d.number % 7).toNat

/-- The day `k` days after `d`, if it is representable. -/
def add? (d : Date) (k : Int) : Option Date := ofNumber? (d.number + k)

/-- The day before `d`, unless `d` is the first day of all. -/
def pred? (d : Date) : Option Date := d.add? (-1)

instance : LE Date := ⟨fun a b => a.number ≤ b.number⟩
instance : LT Date := ⟨fun a b => a.number < b.number⟩
instance : Ord Date := ⟨fun a b => compare a.number b.number⟩

instance (a b : Date) : Decidable (a ≤ b) := inferInstanceAs (Decidable (a.number ≤ b.number))
instance (a b : Date) : Decidable (a < b) := inferInstanceAs (Decidable (a.number < b.number))

/-- The later of two dates. -/
def latest (a b : Date) : Date := if a ≤ b then b else a

end Date

end WallCalendar
