import WallCalendar.Proofs.Timestamp.Scan

/-!
The forms of a moment, and the patterns that read them.

A moment is written in the extended form, with seconds and perhaps a fraction or up to the minute
only, or in the basic form. Each form is read by its own pattern, and the patterns tried before that
one refuse it, at the hyphen or the colon that they miss.
-/

namespace WallCalendar

open WallCalendar.Text

/-! ### Clock times -/

namespace TimeOfDay

/-- A time that a clock shows: a leap second comes after second 59 only. -/
def IsClock (t : TimeOfDay) : Prop := 1000000000 ≤ t.nanos → t.second % 60 = 59

/-- The second that is shown, 60 for a leap second. -/
def shownSecond (t : TimeOfDay) : Nat :=
  if t.nanos < 1000000000 then t.second % 60 else t.second % 60 + 1

/-- The fraction of the second that is shown. -/
def shownNanos (t : TimeOfDay) : Nat := t.nanos % 1000000000

theorem shownSecond_lt (t : TimeOfDay) : t.shownSecond < 100 := by
  unfold shownSecond
  split <;> omega

theorem shownNanos_lt (t : TimeOfDay) : t.shownNanos < 1000000000 := Nat.mod_lt _ (by decide)

/-- What a clock shows is the time of day. -/
theorem ofClock?_of_isClock {t : TimeOfDay} (h : t.IsClock) :
    ofClock? t.hour t.minute (t.second % 60) t.nanos = some t := by
  obtain ⟨s, n, hs, hn⟩ := t
  have hclock : s / 3600 < 24 ∧ s / 60 % 60 < 60 ∧ s % 60 < 60 ∧ n < 2000000000 ∧
      (1000000000 ≤ n → s % 60 = 59) := ⟨by omega, by omega, by omega, hn, h⟩
  unfold ofClock? hour minute
  rw [dif_pos hclock]
  simp only [Option.some_inj, mk.injEq, and_true]
  omega

end TimeOfDay

namespace Timestamp

/-- What a timestamp says that spells `m`. -/
def Fields.ofMoment (m : Moment) : Fields where
  year := m.date.civil.year
  month := m.date.civil.month
  day := m.date.civil.day
  hour := m.time.hour
  minute := m.time.minute
  second := m.time.shownSecond
  nanos := m.time.shownNanos

theorem time?_ofMoment {m : Moment} (h : m.time.IsClock) :
    (Fields.ofMoment m).time? = some m.time := by
  rw [← TimeOfDay.ofClock?_of_isClock h]
  by_cases hleap : m.time.nanos < 1000000000
  · have hsecond : m.time.shownSecond = m.time.second % 60 := if_pos hleap
    have hnanos : m.time.shownNanos = m.time.nanos := Nat.mod_eq_of_lt hleap
    simp only [Fields.time?, Fields.ofMoment, hsecond, hnanos]
    rw [if_neg (by omega)]
  · have hlast := h (Nat.not_lt.mp hleap)
    have hsecond : m.time.shownSecond = 60 := by rw [TimeOfDay.shownSecond, if_neg hleap, hlast]
    have hnanos : 1000000000 + m.time.shownNanos = m.time.nanos := by
      have := m.time.nanos_lt
      simp only [TimeOfDay.shownNanos]
      omega
    simp only [Fields.time?, Fields.ofMoment, hsecond, hnanos, if_true, hlast]

theorem moment?_ofMoment {m : Moment} (h : m.time.IsClock) :
    (Fields.ofMoment m).moment? = some m := by
  have hdate : (Fields.ofMoment m).date? = some m.date := m.date.ofCivil?_civil
  simp only [Fields.moment?, hdate, time?_ofMoment h, Option.bind_eq_bind, Option.bind_some]
  rfl

/-! ### Forms -/

/-- A way to write a moment. -/
inductive Form where
  /-- `YYYY-MM-DDTHH:MM:SS`, and a fraction of so many digits. -/
  | seconds (digits : Nat)
  /-- `YYYY-MM-DDTHH:MM`. -/
  | minutes
  /-- `YYYYMMDDTHHMMSS`. -/
  | basic
  deriving DecidableEq, Repr

namespace Form

/-- Whether nothing of `m` is lost in a form, and its year fits. -/
def Fits (m : Moment) : Form → Prop
  | seconds digits => digits ≤ 9 ∧ m.time.shownNanos % 10 ^ (9 - digits) = 0
  | minutes => m.time.second % 60 = 0 ∧ m.time.nanos = 0
  | basic => (0 ≤ m.date.year ∧ m.date.year ≤ 9999) ∧ m.time.shownNanos = 0

/-- The text of `m` in a form. -/
def chars (m : Moment) : Form → List Char
  | seconds digits =>
    m.date.isoChars ++ 'T' :: m.time.clockChars ++ ':' :: fixed 2 m.time.shownSecond ++
      fractionText digits m.time.shownNanos
  | minutes => m.date.isoChars ++ 'T' :: m.time.clockChars
  | basic =>
    basicChars m.date ++ 'T' :: fixed 2 m.time.hour ++ fixed 2 m.time.minute ++
      fixed 2 m.time.shownSecond

/-- The pattern that reads a form. -/
def pattern : Form → Pattern
  | seconds _ => extendedSecond
  | minutes => extendedMinute
  | basic => basicSecond

end Form

variable {m : Moment} {cs : List Char}

theorem endsTime_nil : EndsTime [] := by simp [EndsTime]

/-- The fields with date, hour and minute of `m`. -/
def Fields.atMinute (f : Fields) (m : Moment) : Fields :=
  { f.on m.date with hour := m.time.hour, minute := m.time.minute }

theorem hour_minute_lt (t : TimeOfDay) : t.hour < 100 ∧ t.minute < 100 := by
  have := t.second_lt
  simp only [TimeOfDay.hour, TimeOfDay.minute]
  omega

theorem scan_extendedMinute (f : Fields) (m : Moment) (cs : List Char) :
    extendedMinute.scan f (Form.minutes.chars m ++ cs) = some (f.atMinute m, cs) := by
  obtain ⟨hhour, hminute⟩ := hour_minute_lt m.time
  simp only [extendedMinute, Form.chars, List.append_assoc, scan_append, scan_extendedDate,
    Option.bind_some, Pattern.scan, Item.scan, TimeOfDay.clockChars, List.cons_append,
    scanNumber_fixed hhour, scanNumber_fixed hminute, if_true, Option.map_some]
  rfl

/-- Up to the minute both extended forms are the same. -/
theorem chars_seconds (digits : Nat) (m : Moment) (cs : List Char) :
    (Form.seconds digits).chars m ++ cs = Form.minutes.chars m ++
      (':' :: (fixed 2 m.time.shownSecond ++ (fractionText digits m.time.shownNanos ++ cs))) := by
  simp only [Form.chars, List.append_assoc, List.cons_append]

theorem scan_extendedSecond {digits : Nat} (hfits : (Form.seconds digits).Fits m)
    (hcs : EndsTime cs) (f : Fields) :
    extendedSecond.scan f ((Form.seconds digits).chars m ++ cs) =
      some ({ f.atMinute m with second := m.time.shownSecond, nanos := m.time.shownNanos },
        cs) := by
  have hfraction := scanFraction_fractionText hfits.1 m.time.shownNanos_lt hfits.2 hcs
  simp only [extendedSecond, chars_seconds, scan_append, scan_extendedMinute, Option.bind_some,
    Pattern.scan, Item.scan, scanNumber_fixed m.time.shownSecond_lt, hfraction, if_true,
    Option.map_some]

theorem scan_basicSecond (hfits : Form.basic.Fits m) (f : Fields) (cs : List Char) :
    basicSecond.scan f (Form.basic.chars m ++ cs) =
      some ({ f.atMinute m with second := m.time.shownSecond }, cs) := by
  obtain ⟨hhour, hminute⟩ := hour_minute_lt m.time
  simp only [basicSecond, basicMinute, Form.chars, List.append_assoc, scan_append,
    scan_basicDate _ hfits.1, Option.bind_some, Pattern.scan, Item.scan, List.cons_append,
    scanNumber_fixed hhour, scanNumber_fixed hminute, scanNumber_fixed m.time.shownSecond_lt,
    if_true, Option.map_some]
  rfl

/-- A form is read by its pattern, up to where it ends. -/
theorem scan_pattern {form : Form} (hfits : form.Fits m) (hcs : EndsTime cs) :
    form.pattern.scan {} (form.chars m ++ cs) = some (Fields.ofMoment m, cs) := by
  cases form with
  | seconds digits => exact scan_extendedSecond hfits hcs {}
  | minutes =>
    have hnanos : m.time.shownNanos = 0 := by rw [TimeOfDay.shownNanos, hfits.2]
    have hsecond : m.time.shownSecond = 0 := by
      rw [TimeOfDay.shownSecond, hfits.2, if_pos (by decide), hfits.1]
    rw [Form.pattern, scan_extendedMinute, Fields.ofMoment, hnanos, hsecond]
    rfl
  | basic =>
    rw [Form.pattern, scan_basicSecond hfits, Fields.ofMoment, hfits.2]
    rfl

/-! ### Patterns that refuse a form -/

/-- The patterns tried before that of a form. -/
def Form.earlier : Form → List Pattern
  | seconds _ => []
  | minutes => [extendedSecond]
  | basic => [extendedSecond, extendedMinute]

/-- Up to the minute, no colon comes after the minute. -/
theorem scan_extendedSecond_minutes (hcs : EndsTime cs) (f : Fields) :
    extendedSecond.scan f (Form.minutes.chars m ++ cs) = none := by
  have hcolon : ∀ c ∈ cs.head?, c ≠ ':' := by
    intro c hc
    rcases hcs c hc with rfl | rfl <;> decide
  simp only [extendedSecond, scan_append, scan_extendedMinute, Option.bind_some, Pattern.scan,
    scan_literal_eq_none hcolon, Option.bind_none]

/-- A form is refused by the patterns tried before its own. -/
theorem scan_earlier {form : Form} {p : Pattern} (hp : p ∈ form.earlier) (hfits : form.Fits m)
    (hcs : EndsTime cs) (f : Fields) : p.scan f (form.chars m ++ cs) = none := by
  cases form with
  | seconds digits => cases hp
  | minutes =>
    rw [List.mem_singleton.mp hp]
    exact scan_extendedSecond_minutes hcs f
  | basic =>
    have hdate : extendedDate.scan f (Form.basic.chars m ++ cs) = none := by
      simp only [Form.chars, List.append_assoc, scan_extendedDate_basicChars f hfits.1]
    have hminute : extendedMinute.scan f (Form.basic.chars m ++ cs) = none :=
      scan_append_eq_none hdate _
    rcases List.mem_cons.mp hp with rfl | hp
    · exact scan_append_eq_none hminute _
    · rwa [List.mem_singleton.mp hp]

/-- In the extended form, digits do not come where a basic date has them. -/
theorem scan_basicSecond_eq_none {form : Form} (h : form ≠ .basic) (f : Fields) :
    basicSecond.scan f (form.chars m ++ cs) = none := by
  refine scan_append_eq_none (scan_append_eq_none ?_ _) _
  cases form with
  | seconds digits => simp only [Form.chars, List.append_assoc, scan_basicDate_isoChars]
  | minutes => simp only [Form.chars, List.append_assoc, scan_basicDate_isoChars]
  | basic => exact absurd rfl h

/-- No offset is read where a colon comes. -/
theorem scan_extendedMinute_offset (digits : Nat) (f : Fields) :
    Pattern.scan (extendedMinute ++ [.offset]) f ((Form.seconds digits).chars m ++ cs) = none := by
  have hcolon : ∀ f cs, Item.offset.scan f (':' :: cs) = none := by
    intro f cs
    rw [Item.scan, skipBlanks_cons_of_not (by decide)]
    rfl
  rw [chars_seconds, scan_append, scan_extendedMinute, Option.bind_some]
  simp only [Pattern.scan, hcolon, Option.bind_none]

end Timestamp

end WallCalendar
