import WallCalendar.Date.Basic

/-!
The civil date of a day leads back to the day, and the day of a civil date to the civil date.

A year has the days of its months, and the next year begins where they end. The guess at the year of
a day is off by one at most, so the year found holds the day; the months cut off it leave a day of
the month. A day lies in no other year, and no other months can be cut off it.
-/

namespace WallCalendar

/-! ### Years -/

/-- The number of days in some months. -/
def daysIn (months : List Nat) : Nat := months.foldl (· + ·) 0

theorem daysIn_cons (n : Nat) (ns : List Nat) : daysIn (n :: ns) = n + daysIn ns := by
  rw [daysIn, List.foldl_cons, Nat.zero_add, ← Nat.add_zero n, List.foldl_assoc]; rfl

/-- A year ends where the next one begins. -/
theorem newYear_succ (year : Int) :
    newYear (year + 1) = newYear year + daysIn (monthLengths (isLeapYear year)) := by
  have hleap : isLeapYear year = true ↔ year % 4 = 0 ∧ (year % 100 ≠ 0 ∨ year % 400 = 0) := by
    simp [isLeapYear]
  unfold newYear
  cases h : isLeapYear year with
  | true =>
    have hyear := hleap.mp h
    rw [show daysIn (monthLengths true) = 366 from rfl]
    omega
  | false =>
    have hyear := mt hleap.mpr (by simp [h])
    rw [show daysIn (monthLengths false) = 365 from rfl]
    omega

/-- The year of a day holds it. -/
theorem newYear_yearOf (n : Int) : newYear (yearOf n) ≤ n ∧ n < newYear (yearOf n + 1) := by
  unfold yearOf
  generalize hguess : 400 * n / 146097 + 1 = guess
  -- a year begins less than two days off its share of the 146097, so one year more is enough
  have hlow : newYear (guess - 1) ≤ n := by unfold newYear; omega
  have hhigh : n < newYear (guess + 1 + 1) := by unfold newYear; omega
  dsimp only
  split
  next hlt => rw [Int.sub_add_cancel]; exact ⟨hlow, hlt⟩
  next hge =>
    split
    next hle => exact ⟨hle, hhigh⟩
    next hgt => exact ⟨Int.not_lt.mp hge, Int.not_le.mp hgt⟩

/-- A year with its end comes before all later ones. -/
theorem newYear_succ_le {year later : Int} (h : year < later) :
    newYear (year + 1) ≤ newYear later := by
  unfold newYear; omega

/-- A day lies in the year that has begun and not ended. -/
theorem yearOf_eq_iff {n year : Int} :
    yearOf n = year ↔ newYear year ≤ n ∧ n < newYear (year + 1) := by
  obtain ⟨hlow, hhigh⟩ := newYear_yearOf n
  constructor
  · rintro rfl
    exact ⟨hlow, hhigh⟩
  · rintro ⟨hle, hlt⟩
    rcases Int.lt_trichotomy (yearOf n) year with hbefore | heq | hafter
    · have := newYear_succ_le hbefore
      omega
    · exact heq
    · have := newYear_succ_le hafter
      omega

/-! ### Months -/

/-- The months cut off lie before the day, and the rest of it lies in the next month. -/
theorem splitMonths_spec : ∀ (ns : List Nat) (d : Nat), d < daysIn ns →
    ∃ months days length, splitMonths ns d = (months, days) ∧ ns[months]? = some length ∧
      days < length ∧ daysIn (ns.take months) + days = d
  | [], d, h => absurd h (Nat.not_lt_zero d)
  | n :: ns, d, h => by
    rw [daysIn_cons] at h
    rw [splitMonths]
    split
    next hlt => exact ⟨0, d, n, rfl, rfl, hlt, Nat.zero_add d⟩
    next hge =>
      obtain ⟨months, days, length, hsplit, hmonth, hlt, hsum⟩ :=
        splitMonths_spec ns (d - n) (by omega)
      refine ⟨months + 1, days, length, by rw [hsplit], hmonth, hlt, ?_⟩
      rw [List.take_succ_cons, daysIn_cons]
      omega

/-- The months before a day of the next month are cut off, and the rest of it is left. -/
theorem splitMonths_take : ∀ (ns : List Nat) (months : Nat) {length days : Nat},
    ns[months]? = some length → days < length →
      splitMonths ns (daysIn (ns.take months) + days) = (months, days)
  | [], _, _, _, h, _ => by simp at h
  | n :: ns, 0, length, days, h, hlt => by
    rw [List.getElem?_cons_zero, Option.some_inj] at h
    rw [List.take_zero, show daysIn [] = 0 from rfl, Nat.zero_add, splitMonths, if_pos (h ▸ hlt)]
  | n :: ns, months + 1, length, days, h, hlt => by
    rw [List.getElem?_cons_succ] at h
    have hrest := splitMonths_take ns months h hlt
    rw [List.take_succ_cons, daysIn_cons, splitMonths, if_neg (by omega),
      show n + daysIn (ns.take months) + days - n = daysIn (ns.take months) + days by omega, hrest]

theorem daysIn_take_add_lt : ∀ {ns : List Nat} {months length days : Nat},
    ns[months]? = some length → days < length → daysIn (ns.take months) + days < daysIn ns
  | [], _, _, _, h, _ => by simp at h
  | n :: ns, 0, length, days, h, hlt => by
    rw [List.getElem?_cons_zero, Option.some_inj] at h
    rw [List.take_zero, show daysIn [] = 0 from rfl, daysIn_cons]
    omega
  | n :: ns, months + 1, length, days, h, hlt => by
    rw [List.getElem?_cons_succ] at h
    have hrest := daysIn_take_add_lt h hlt
    rw [List.take_succ_cons, daysIn_cons, daysIn_cons]
    omega

/-! ### Civil dates -/

namespace Civil

/-- What the civil date of a day consists of. -/
theorem ofNumber_spec (n : Int) :
    ∃ months days length, ofNumber n = ⟨yearOf n, months + 1, days + 1⟩ ∧
      (monthLengths (isLeapYear (yearOf n)))[months]? = some length ∧ days < length ∧
      newYear (yearOf n) + daysIn ((monthLengths (isLeapYear (yearOf n))).take months) + days =
        n := by
  obtain ⟨hlow, hhigh⟩ := newYear_yearOf n
  rw [newYear_succ] at hhigh
  obtain ⟨months, days, length, hsplit, hmonth, hlt, hsum⟩ := splitMonths_spec
    (monthLengths (isLeapYear (yearOf n))) (n - newYear (yearOf n)).toNat (by omega)
  exact ⟨months, days, length, by simp only [ofNumber, hsplit], hmonth, hlt, by omega⟩

/-- The civil date of a day is one of the calendar, and it is that day's. -/
theorem number_ofNumber (n : Int) : (ofNumber n).IsValid ∧ (ofNumber n).number = n := by
  obtain ⟨months, days, length, hcivil, hmonth, hlt, hsum⟩ := ofNumber_spec n
  rw [hcivil]
  constructor
  · have hlength : monthLength ⟨yearOf n, months + 1, days + 1⟩ = length := by
      simp [monthLength, hmonth]
    exact ⟨Nat.succ_pos days, hlength ▸ hlt⟩
  · simp only [number, Nat.add_sub_cancel]
    rw [← daysIn]
    omega

/-- What a civil date of the calendar consists of. -/
theorem exists_of_isValid {c : Civil} (h : c.IsValid) :
    ∃ months days length, c = ⟨c.year, months + 1, days + 1⟩ ∧
      (monthLengths (isLeapYear c.year))[months]? = some length ∧ days < length := by
  obtain ⟨year, month, day⟩ := c
  obtain ⟨hlow, hhigh⟩ := h
  unfold monthLength at hhigh
  dsimp only at hlow hhigh ⊢
  split at hhigh
  next => omega
  next hmonth =>
    cases hlength : (monthLengths (isLeapYear year))[month - 1]? with
    | none =>
      rw [hlength, Option.getD_none] at hhigh
      omega
    | some length =>
      rw [hlength, Option.getD_some] at hhigh
      refine ⟨month - 1, day - 1, length, ?_, hlength, by omega⟩
      rw [Nat.sub_add_cancel (Nat.pos_of_ne_zero hmonth), Nat.sub_add_cancel hlow]

/-- A civil date of the calendar is that of its number. -/
theorem ofNumber_number {c : Civil} (h : c.IsValid) : ofNumber c.number = c := by
  obtain ⟨months, days, length, hc, hmonth, hlt⟩ := exists_of_isValid h
  have hinside := daysIn_take_add_lt hmonth hlt
  have hnumber : c.number = newYear c.year +
      (daysIn ((monthLengths (isLeapYear c.year)).take months) + days : Nat) := by
    rw [hc]
    simp only [number, Nat.add_sub_cancel]
    rw [← daysIn]
    omega
  have hyear : yearOf c.number = c.year := by
    rw [yearOf_eq_iff, newYear_succ]
    omega
  have hrest : (c.number - newYear c.year).toNat =
      daysIn ((monthLengths (isLeapYear c.year)).take months) + days := by omega
  simp only [ofNumber, hyear, hrest, splitMonths_take _ months hmonth hlt]
  exact hc.symm

/-- There are twelve months of at most 31 days. -/
theorem ofNumber_bounds (n : Int) :
    (1 ≤ (ofNumber n).month ∧ (ofNumber n).month ≤ 12) ∧
      1 ≤ (ofNumber n).day ∧ (ofNumber n).day ≤ 31 := by
  obtain ⟨months, days, length, hcivil, hmonth, hlt, -⟩ := ofNumber_spec n
  have hlengths : ∀ leap, (monthLengths leap).length = 12 ∧ ∀ l ∈ monthLengths leap, l ≤ 31 := by
    decide
  have hmonths := (List.getElem?_eq_some_iff.mp hmonth).1
  have hlength := (hlengths _).2 length (List.mem_of_getElem? hmonth)
  rw [(hlengths _).1] at hmonths
  rw [hcivil]
  exact ⟨⟨Nat.succ_pos months, hmonths⟩, Nat.succ_pos days, Nat.le_trans hlt hlength⟩

end Civil

namespace Date

/-- A date is found by its number. -/
theorem ofNumber?_eq_some_iff {n : Int} {d : Date} : ofNumber? n = some d ↔ d.number = n := by
  unfold ofNumber?
  constructor
  · intro h
    split at h
    · cases h
      rfl
    · cases h
  · rintro rfl
    rw [dif_pos ⟨d.first_le, d.le_last⟩]

theorem ofCivil?_eq_some_iff {c : Civil} {d : Date} :
    ofCivil? c = some d ↔ c.IsValid ∧ d.number = c.number := by
  rw [ofCivil?, Option.ite_none_right_eq_some, ofNumber?_eq_some_iff]

/-- The civil date of a date names it. -/
theorem ofCivil?_civil (d : Date) : ofCivil? d.civil = some d := by
  obtain ⟨hvalid, hnumber⟩ := Civil.number_ofNumber d.number
  rw [ofCivil?, civil, if_pos hvalid, ofNumber?_eq_some_iff, hnumber]

/-- No other civil date names it. -/
theorem ofCivil?_eq_some_iff_civil {c : Civil} {d : Date} :
    ofCivil? c = some d ↔ d.civil = c := by
  constructor
  · intro h
    obtain ⟨hvalid, hnumber⟩ := ofCivil?_eq_some_iff.mp h
    rw [civil, hnumber, Civil.ofNumber_number hvalid]
  · rintro rfl
    exact ofCivil?_civil d

/-- Months have two digits, and so have days. -/
theorem civil_lt (d : Date) : d.civil.month < 100 ∧ d.civil.day < 100 := by
  obtain ⟨⟨-, hmonth⟩, -, hday⟩ := Civil.ofNumber_bounds d.number
  exact ⟨Nat.lt_of_le_of_lt hmonth (by decide), Nat.lt_of_le_of_lt hday (by decide)⟩

end Date

end WallCalendar
