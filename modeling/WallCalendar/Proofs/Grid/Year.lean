import WallCalendar.Proofs.Grid

/-!
The grid of a year is its least cover by whole weeks.

It begins with the Sunday on or before January 1 and ends with the Saturday on or after December 31;
a year has a grid just when both are representable. A year of 365 days ends on the weekday it began
with and a leap year on the next, so that 53 weeks are enough unless a leap year begins on a
Saturday. Ordinals number the days from the first Sunday on, on both sides of it, and of the days
listed those of the year itself are as many as its months have.
-/

namespace WallCalendar

/-! ### Years by day numbers -/

theorem newYear_add_length (year : Int) :
    newYear (year + 1) = newYear year + if isLeapYear year = true then 366 else 365 := by
  rw [newYear_succ]
  cases isLeapYear year <;> rfl

theorem newYear_lt (year : Int) : newYear year < newYear (year + 1) := by
  have hlength := newYear_add_length year
  split at hlength <;> omega

namespace Civil

theorem number_january (year : Int) : (⟨year, 1, 1⟩ : Civil).number = newYear year := by
  simp [number]

theorem number_december (year : Int) :
    (⟨year, 12, 31⟩ : Civil).number = newYear (year + 1) - 1 := by
  rw [newYear_add_length]
  cases h : isLeapYear year <;> simp [number, h, monthLengths] <;> omega

theorem isValid_january (year : Int) : (⟨year, 1, 1⟩ : Civil).IsValid := by
  simp [IsValid, monthLength, monthLengths]

theorem isValid_december (year : Int) : (⟨year, 12, 31⟩ : Civil).IsValid := by
  simp [IsValid, monthLength, monthLengths]

end Civil

namespace Date

theorem exists_number {n : Int} (hlow : firstDay ≤ n) (hhigh : n ≤ lastDay) :
    ∃ d : Date, d.number = n :=
  ⟨⟨n, hlow, hhigh⟩, rfl⟩

theorem year_eq_iff {d : Date} {year : Int} :
    d.year = year ↔ newYear year ≤ d.number ∧ d.number < newYear (year + 1) :=
  yearOf_eq_iff

/-- The date is the Sunday on or before the day numbered `n`. -/
def IsSundayUpTo (d : Date) (n : Int) : Prop := d.weekday = 0 ∧ d.number ≤ n ∧ n < d.number + 7

/-- The date is the Saturday on or after the day numbered `n`. -/
def IsSaturdayFrom (d : Date) (n : Int) : Prop := d.weekday = 6 ∧ n ≤ d.number ∧ d.number < n + 7

theorem isSundayUpTo_iff {d : Date} {n : Int} : d.IsSundayUpTo n ↔ d.number = n - n % 7 := by
  simp only [IsSundayUpTo, weekday]; omega

theorem isSaturdayFrom_iff {d : Date} {n : Int} :
    d.IsSaturdayFrom n ↔ d.number = n - n % 7 + 6 := by
  simp only [IsSaturdayFrom, weekday]; omega

end Date

/-! ### The grid of a year -/

namespace Grid

variable {g : Grid} {d : Date} {year : Int}

theorem col_ord (g : Grid) (d : Date) : col (g.ord d) = d.weekday := by
  have hsunday := g.sunday
  simp only [col, Grid.ord, Date.weekday]
  omega

theorem ord_eq_row_col (ord : Int) : ord = 7 * row ord + col ord := by
  simp only [row, col]; omega

/-- The Sunday and the Saturday around a year, by number. -/
theorem isSome_ofYear? (year : Int) : (ofYear? year).isSome = true ↔
    firstDay ≤ newYear year - newYear year % 7 ∧
      newYear (year + 1) - 1 - (newYear (year + 1) - 1) % 7 + 6 ≤ lastDay := by
  unfold ofYear?
  dsimp only
  split
  next h => simpa using h
  next h => simpa using h

/-- A grid goes from the one to the other. -/
theorem of_ofYear? (h : ofYear? year = some g) : g.year = year ∧
    g.start.number = newYear year - newYear year % 7 ∧
    g.start.number + g.days = newYear (year + 1) - (newYear (year + 1) - 1) % 7 + 6 := by
  have hordered := newYear_lt year
  unfold ofYear? at h
  dsimp only at h
  split at h
  · cases h
    refine ⟨rfl, rfl, ?_⟩
    simp only [days]
    omega
  · cases h

/-- The grid of a year holds the year. -/
theorem year_within (h : ofYear? year = some g) :
    g.start.number ≤ newYear year ∧ newYear (year + 1) ≤ g.start.number + g.days := by
  obtain ⟨-, hstart, hend⟩ := of_ofYear? h
  omega

theorem days_eq_of_ofYear? {first : Date} (h : ofYear? year = some g)
    (hfirst : first.number = newYear year) :
    g.days = if isLeapYear year = true ∧ first.weekday = 6 then 378 else 371 := by
  obtain ⟨-, hstart, hend⟩ := of_ofYear? h
  have hlength := newYear_add_length year
  have hweekday : first.weekday = (newYear year % 7).toNat := by rw [Date.weekday, hfirst]
  by_cases hleap : isLeapYear year = true
  · rw [if_pos hleap] at hlength
    by_cases hsaturday : first.weekday = 6
    · rw [if_pos ⟨hleap, hsaturday⟩]
      omega
    · rw [if_neg fun h => hsaturday h.2]
      omega
  · rw [if_neg hleap] at hlength
    rw [if_neg fun h => hleap h.1]
    omega

/-- Whole weeks that hold both ends of a year hold its grid. -/
theorem contains_of_ends {weeks : Grid} (h : ofYear? year = some g)
    (hfirst : 0 ≤ newYear year - weeks.start.number ∧
      newYear year - weeks.start.number < weeks.days)
    (hlast : 0 ≤ newYear (year + 1) - 1 - weeks.start.number ∧
      newYear (year + 1) - 1 - weeks.start.number < weeks.days)
    (hd : g.contains d = true) : weeks.contains d = true := by
  obtain ⟨-, hstart, hend⟩ := of_ofYear? h
  have hsunday := weeks.sunday
  simp only [contains_iff, Grid.ord, days] at hfirst hlast hend hd ⊢
  omega

/-- The numbers of the days listed that lie in the year. -/
theorem perm_numbers_year (h : ofYear? year = some g) :
    ((g.dates.filter (·.year = year)).map Date.number).Perm
      ((List.range (newYear (year + 1) - newYear year).toNat).map
        fun k : Nat => newYear year + k) := by
  obtain ⟨hlow, hhigh⟩ := year_within h
  have hnodup : ((g.dates.filter (·.year = year)).map Date.number).Nodup := by
    refine List.pairwise_map.mpr ((g.pairwise_dates.filter _).imp ?_)
    intro a b hlt
    exact Int.ne_of_lt hlt
  have hrange : ((List.range (newYear (year + 1) - newYear year).toNat).map
      fun k : Nat => newYear year + k).Nodup := by
    refine List.pairwise_map.mpr (List.nodup_range.imp ?_)
    intro a b hne
    omega
  refine (List.perm_ext_iff_of_nodup hnodup hrange).mpr fun n => ?_
  simp only [List.mem_map, List.mem_filter, List.mem_range, decide_eq_true_eq, Date.year_eq_iff]
  constructor
  · rintro ⟨d, ⟨-, hle, hlt⟩, rfl⟩
    exact ⟨(d.number - newYear year).toNat, by omega, by omega⟩
  · rintro ⟨k, hk, rfl⟩
    -- the day `k` of the year stands among the days of the grid
    have hi : (newYear year + k - g.start.number).toNat < g.days := by omega
    have hnumber : (g.day ⟨_, hi⟩).number = newYear year + k := by
      simp only [day]; omega
    exact ⟨g.day ⟨_, hi⟩, ⟨List.mem_ofFn.mpr ⟨_, rfl⟩, by omega, by omega⟩, hnumber⟩

theorem length_filter_year (h : ofYear? year = some g) :
    (g.dates.filter (·.year = year)).length = if isLeapYear year = true then 366 else 365 := by
  have hlength := (perm_numbers_year h).length_eq
  rw [List.length_map, List.length_map, List.length_range, newYear_add_length] at hlength
  rw [hlength]
  split <;> omega

/-- How a grid covers its year, from January 1, `first`, to December 31, `last`, and on to the
Saturday that follows. -/
structure CoversYear (g : Grid) (year : Int) (first last saturday : Date) : Prop where
  year_eq : g.year = year
  january : Date.ofCivil? ⟨year, 1, 1⟩ = some first
  december : Date.ofCivil? ⟨year, 12, 31⟩ = some last
  start_sunday : g.start.IsSundayUpTo first.number
  end_saturday : saturday.IsSaturdayFrom last.number
  /-- The weeks are whole, and only a leap year that begins on a Saturday takes one more. -/
  whole_weeks : 7 ∣ g.days
  days_eq : g.days = if isLeapYear year = true ∧ first.weekday = 6 then 378 else 371
  /-- No whole weeks that hold both ends of the year leave out a day of these. -/
  least : ∀ weeks : Grid, weeks.contains first = true → weeks.contains last = true →
    ∀ d, g.contains d = true → weeks.contains d = true
  /-- Ordinals number the dates, in the grid and on both sides of it. -/
  date_iff : ∀ ord d, g.date? ord = some d ↔ g.ord d = ord
  col_eq : ∀ d, col (g.ord d) = d.weekday
  ord_eq : ∀ d, g.ord d = 7 * row (g.ord d) + col (g.ord d)
  contains_iff : ∀ d, g.contains d = true ↔ g.start ≤ d ∧ d ≤ saturday
  /-- The dates from the Sunday to the Saturday are listed in order, each at its ordinal. -/
  mem_dates_iff : ∀ d, d ∈ g.dates ↔ g.start ≤ d ∧ d ≤ saturday
  ascending : g.dates.Pairwise (· < ·)
  ord_getElem : ∀ (i : Nat) d, g.dates[i]? = some d → g.ord d = i
  /-- Those of the year itself are as many as it has days. -/
  length_year : (g.dates.filter (·.year = year)).length =
    if isLeapYear year = true then 366 else 365

theorem exists_coversYear (h : ofYear? year = some g) :
    ∃ first last saturday, g.CoversYear year first last saturday := by
  obtain ⟨hyear, hstart, hend⟩ := of_ofYear? h
  obtain ⟨hlow, hhigh⟩ := year_within h
  have hordered := newYear_lt year
  have hfits : g.start.number + g.days ≤ lastDay + 1 := g.fits
  have hfirst_le := g.start.first_le
  obtain ⟨first, hfirst⟩ := Date.exists_number (n := newYear year) (by omega) (by omega)
  obtain ⟨last, hlast⟩ := Date.exists_number (n := newYear (year + 1) - 1) (by omega) (by omega)
  obtain ⟨saturday, hsaturday⟩ :=
    Date.exists_number (n := g.start.number + g.days - 1) (by omega) (by omega)
  have hcontains : ∀ d, g.contains d = true ↔ g.start ≤ d ∧ d ≤ saturday := by
    intro d
    rw [contains_iff, Date.le_iff, Date.le_iff, Grid.ord]
    omega
  refine ⟨first, last, saturday, ?_⟩
  exact
    { year_eq := hyear
      january := Date.ofCivil?_eq_some_iff.mpr
        ⟨Civil.isValid_january year, by rw [hfirst, Civil.number_january]⟩
      december := Date.ofCivil?_eq_some_iff.mpr
        ⟨Civil.isValid_december year, by rw [hlast, Civil.number_december]⟩
      start_sunday := Date.isSundayUpTo_iff.mpr (by omega)
      end_saturday := Date.isSaturdayFrom_iff.mpr (by omega)
      whole_weeks := Nat.dvd_mul_right ..
      days_eq := days_eq_of_ofYear? h hfirst
      least := fun weeks hweeks hweeks' d hd =>
        contains_of_ends h (hfirst ▸ contains_iff.mp hweeks) (hlast ▸ contains_iff.mp hweeks') hd
      date_iff := fun _ _ => date?_eq_some_iff
      col_eq := g.col_ord
      ord_eq := fun _ => ord_eq_row_col _
      contains_iff := hcontains
      mem_dates_iff := fun d => mem_dates.trans (hcontains d)
      ascending := g.pairwise_dates
      ord_getElem := fun _ _ => ord_of_getElem?_dates
      length_year := length_filter_year h }

/-- A year has a grid just when the Sunday on or before January 1 and the Saturday on or after
December 31 are representable, and its grid lists the days from the one to the other. -/
theorem ofYear?_least_cover (year : Int) :
    ((ofYear? year).isSome = true ↔
      (∃ sunday : Date, sunday.IsSundayUpTo (Civil.mk year 1 1).number) ∧
        ∃ saturday : Date, saturday.IsSaturdayFrom (Civil.mk year 12 31).number) ∧
    ∀ g, ofYear? year = some g →
      ∃ first last saturday, g.CoversYear year first last saturday := by
  refine ⟨?_, fun g h => exists_coversYear h⟩
  rw [isSome_ofYear?, Civil.number_january, Civil.number_december]
  simp only [Date.isSundayUpTo_iff, Date.isSaturdayFrom_iff]
  constructor
  · rintro ⟨hlow, hhigh⟩
    have hordered := newYear_lt year
    exact ⟨Date.exists_number hlow (by omega), Date.exists_number (by omega) hhigh⟩
  · rintro ⟨⟨sunday, hsunday⟩, saturday, hsaturday⟩
    have hlow := sunday.first_le
    have hhigh := saturday.le_last
    omega

/-- The year 2000 was a leap year that began on a Saturday. -/
theorem ofYear?_least_cover_sample :
    ∃ g first last saturday, ofYear? 2000 = some g ∧ g.CoversYear 2000 first last saturday ∧
      g.days = 378 := by
  obtain ⟨first, last, saturday, h⟩ := (ofYear?_least_cover 2000).2 _ rfl
  exact ⟨_, first, last, saturday, rfl, h, rfl⟩

end Grid

end WallCalendar
