import WallCalendar.Date.Text

/-!
The grid of a year: whole weeks, Sunday first, that cover it.

The ordinal of a day counts from the Sunday on or before January 1; the grid ends with the Saturday
on or after December 31. Row and column of an ordinal are quotient and remainder by seven, also for
ordinals before the grid. A year has a grid only if both padded ends are representable.
-/

namespace WallCalendar

/-- The whole weeks that cover a year. -/
structure Grid where
  year : Int
  /-- The first day, a Sunday. -/
  start : Date
  /-- The number of weeks. -/
  rows : Nat
  sunday : start.number % 7 = 0
  fits : start.number + 7 * rows ≤ lastDay + 1

namespace Grid

/-- The grid of `year`. -/
def ofYear? (year : Int) : Option Grid :=
  let first := newYear year
  let last := newYear (year + 1) - 1
  let sunday := first - first % 7
  let saturday := last - last % 7 + 6
  if h : firstDay ≤ sunday ∧ saturday ≤ lastDay then
    have ordered : first ≤ last := by simp only [first, last, newYear]; omega
    some
      { year := year
        start := ⟨sunday, h.1, by omega⟩
        rows := ((saturday + 1 - sunday) / 7).toNat
        sunday := by simp only [sunday]; omega
        fits := by simp only; omega }
  else none

/-- The number of days. -/
def days (g : Grid) : Nat := 7 * g.rows

/-- The day at a place inside the grid. -/
def day (g : Grid) (i : Fin g.days) : Date :=
  ⟨g.start.number + i, by have := g.start.first_le; omega,
    by have := g.fits; have := i.isLt; simp only [days] at this; omega⟩

/-- All days in order. -/
def dates (g : Grid) : List Date := List.ofFn g.day

/-- The ordinal of any date, negative before the grid. -/
def ord (g : Grid) (d : Date) : Int := d.number - g.start.number

/-- The date at any ordinal, if it is representable. -/
def date? (g : Grid) (ord : Int) : Option Date := g.start.add? ord

/-- The week of an ordinal. -/
def row (ord : Int) : Int := ord / 7

/-- The weekday of an ordinal, zero for Sunday. -/
def col (ord : Int) : Int := ord % 7

/-- Whether the grid shows a date. -/
def contains (g : Grid) (d : Date) : Bool := decide (0 ≤ g.ord d ∧ g.ord d < g.days)

end Grid

end WallCalendar
