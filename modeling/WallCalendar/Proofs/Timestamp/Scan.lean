import WallCalendar.Proofs.Date.Civil
import WallCalendar.Proofs.Text.Blank
import WallCalendar.Proofs.Text.Decimal
import WallCalendar.Timestamp.Reading

/-!
What the items of a pattern take off the front of a text.

An item that reads a number takes just the digits written for it, and an item whose character does
not come next takes nothing at all. From these follow the parts of dates: hyphens tell the extended
form from the basic one.
-/

namespace WallCalendar

open WallCalendar.Text

/-! ### Digits -/

theorem Text.isBlank_of_isDigit {c : Char} (h : c.isDigit = true) : isBlank c = false := by
  have hrange := toNat_of_isDigit h
  simp only [isBlank, inRanges, blankRanges, List.any_cons, List.any_nil]
  grind

theorem Text.skipBlanks_digits {ds : List Char} (hds : ∀ c ∈ ds, c.isDigit = true) (hne : ds ≠ [])
    (cs : List Char) : skipBlanks (ds ++ cs) = ds ++ cs := by
  obtain ⟨d, ds, rfl⟩ := List.exists_cons_of_ne_nil hne
  exact skipBlanks_cons_of_not (isBlank_of_isDigit (hds d (List.mem_cons_self ..))) _

theorem Text.fixed_ne_nil {w : Nat} (h : w ≠ 0) (n : Nat) : fixed w n ≠ [] := by
  rw [← List.length_pos_iff, length_fixed]
  exact Nat.pos_of_ne_zero h

theorem Text.spanDigits_fixed (w n : Nat) (cs : List Char) :
    spanDigits w (fixed w n ++ cs) = (fixed w n, cs) := by
  have hspan := spanDigits_append (isDigit_of_mem_fixed w n) cs
  rwa [length_fixed] at hspan

namespace Timestamp

/-! ### Numbers -/

theorem valueOfDigits_of_ne_nil {ds : List Char} (h : ds ≠ []) (cs : List Char) :
    valueOfDigits (ds, cs) = some (digitsValue ds, cs) := by
  obtain ⟨d, ds, rfl⟩ := List.exists_cons_of_ne_nil h
  rfl

theorem scanNumber_fixed {n : Nat} (h : n < 100) (cs : List Char) :
    scanNumber (fixed 2 n ++ cs) = some (n, cs) := by
  have hne : fixed 2 n ≠ [] := fixed_ne_nil (by decide) n
  rw [scanNumber, skipBlanks_digits (isDigit_of_mem_fixed 2 n) hne, spanDigits_fixed,
    valueOfDigits_of_ne_nil hne, digitsValue_fixed, Nat.mod_eq_of_lt (show n < 10 ^ 2 from h)]

theorem scanNumber_hyphen (cs : List Char) : scanNumber ('-' :: cs) = none := by
  rw [scanNumber, skipBlanks_cons_of_not (by decide)]
  rfl

/-- Digits in front are no sign. -/
theorem scanYear_digits {ds cs : List Char} (hds : ∀ c ∈ ds, c.isDigit = true) (hne : ds ≠ []) :
    scanYear (ds ++ cs) =
      (valueOfDigits (spanDigits 4 (ds ++ cs))).map fun (n, rest) => ((n : Int), rest) := by
  obtain ⟨d, ds, rfl⟩ := List.exists_cons_of_ne_nil hne
  have hd := hds d (List.mem_cons_self ..)
  rw [scanYear, skipBlanks_digits hds hne]
  split
  next heq => cases heq; exact absurd hd (by decide)
  next heq => cases heq; exact absurd hd (by decide)
  next => rfl

theorem scanYear_fixed {n : Nat} (h : n < 10000) (cs : List Char) :
    scanYear (fixed 4 n ++ cs) = some ((n : Int), cs) := by
  have hne : fixed 4 n ≠ [] := fixed_ne_nil (by decide) n
  rw [scanYear_digits (isDigit_of_mem_fixed 4 n) hne, spanDigits_fixed,
    valueOfDigits_of_ne_nil hne, digitsValue_fixed, Nat.mod_eq_of_lt (show n < 10 ^ 4 from h)]
  rfl

/-- A year is read as it is written, with as many digits as it has, if no digit comes after it. -/
theorem scanYear_yearChars (year : Int) {cs : List Char} (h : EndsDigits cs) :
    scanYear (Date.yearChars year ++ cs) = some (year, cs) := by
  have hne : padded 4 year.natAbs ≠ [] := padded_ne_nil (by decide) _
  have hspan := spanAllDigits_append (isDigit_of_mem_padded 4 year.natAbs) h
  have hvalue : valueOfDigits (spanAllDigits (padded 4 year.natAbs ++ cs)) =
      some (year.natAbs, cs) := by
    rw [hspan, valueOfDigits_of_ne_nil hne, digitsValue_padded]
  unfold Date.yearChars
  split
  next hshort =>
    rw [scanYear_fixed (by omega), Int.natAbs_of_nonneg hshort.1]
  next =>
    split
    next hneg =>
      rw [List.cons_append, scanYear, skipBlanks_cons_of_not (by decide)]
      simp only [hvalue, Option.map_some, Option.some_inj, Prod.mk.injEq, and_true]
      omega
    next hpos =>
      rw [List.cons_append, scanYear, skipBlanks_cons_of_not (by decide)]
      simp only [hvalue, Option.map_some, Option.some_inj, Prod.mk.injEq, and_true]
      omega

theorem scanYear_hyphen (year : Int) (cs : List Char) :
    scanYear (Date.yearChars year ++ '-' :: cs) = some (year, '-' :: cs) :=
  scanYear_yearChars year (endsDigits_cons.mpr rfl)

/-! ### Fractions -/

/-- A fraction of `digits` digits, or none. -/
def fractionText (digits nanos : Nat) : List Char :=
  if digits = 0 then [] else '.' :: fixed digits (nanos / 10 ^ (9 - digits))

/-- After a time, a text ends or goes on with a sign. -/
def EndsTime (cs : List Char) : Prop := ∀ c ∈ cs.head?, c = '+' ∨ c = '-'

theorem EndsTime.endsDigits {cs : List Char} (h : EndsTime cs) : EndsDigits cs := by
  intro c hc
  rcases h c hc with rfl | rfl <;> rfl

/-- A fraction that has digits enough is read as it is written. -/
theorem scanFraction_fractionText {digits nanos : Nat} (hdigits : digits ≤ 9)
    (hnanos : nanos < 1000000000) (hexact : nanos % 10 ^ (9 - digits) = 0) {cs : List Char}
    (h : EndsTime cs) : scanFraction (fractionText digits nanos ++ cs) = some (nanos, cs) := by
  unfold fractionText
  split
  next hzero =>
    have hnone : nanos = 0 := by
      rw [hzero] at hexact
      exact Nat.eq_zero_of_dvd_of_lt (Nat.dvd_of_mod_eq_zero hexact) hnanos
    rw [List.nil_append, hnone]
    cases cs with
    | nil => rfl
    | cons c cs =>
      rcases h c rfl with rfl | rfl <;> rfl
  next hsome =>
    have hspan := spanAllDigits_append
      (isDigit_of_mem_fixed digits (nanos / 10 ^ (9 - digits))) h.endsDigits
    have hlt : nanos / 10 ^ (9 - digits) < 10 ^ digits := by
      refine Nat.div_lt_of_lt_mul ?_
      rw [← pow_add, Nat.sub_add_cancel hdigits]
      exact hnanos
    have hne := fixed_ne_nil hsome (nanos / 10 ^ (9 - digits))
    simp only [List.cons_append, scanFraction, hspan, List.isEmpty_iff, hne, if_false]
    rw [List.take_of_length_le (by rw [length_fixed]; exact hdigits), length_fixed,
      digitsValue_fixed, Nat.mod_eq_of_lt hlt]
    have hback := Nat.div_mul_cancel (Nat.dvd_of_mod_eq_zero hexact)
    exact congrArg (fun n => some (n, cs)) hback

/-! ### Offsets -/

theorem scanPair_fixed {n : Nat} (h : n < 100) (cs : List Char) :
    Offset.scanPair (fixed 2 n ++ cs) = some (n, cs) := by
  have htens : n / 10 < 10 := by omega
  have hunits : n % 10 < 10 := by omega
  simp only [fixed, List.nil_append, List.cons_append, Offset.scanPair, Nat.mod_eq_of_lt htens,
    isDigit_digitChar htens, isDigit_digitChar hunits, digitValue_digitChar htens,
    digitValue_digitChar hunits, Bool.and_self, if_true, Nat.div_add_mod]

theorem isSeparator_of_isDigit {c : Char} (h : c.isDigit = true) :
    Offset.isSeparator c = false := by
  have hcolon : c ≠ ':' := by rintro rfl; exact absurd h (by decide)
  simp [Offset.isSeparator, hcolon, isBlank_of_isDigit h]

/-- What stands between hours and minutes ends with the first digit. -/
theorem dropWhile_isSeparator {gap : List Char} (h : ∀ c ∈ gap, Offset.isSeparator c = true)
    (n : Nat) (cs : List Char) :
    (gap ++ (fixed 2 n ++ cs)).dropWhile Offset.isSeparator = fixed 2 n ++ cs := by
  obtain ⟨d, ds, hds⟩ := List.exists_cons_of_ne_nil (fixed_ne_nil (w := 2) (by decide) n)
  have hd : d.isDigit = true := isDigit_of_mem_fixed 2 n d (by simp [hds])
  rw [List.dropWhile_append_of_pos h, hds, List.cons_append,
    List.dropWhile_cons_of_neg (by simp [isSeparator_of_isDigit hd])]

/-- Hours and minutes after a sign are read as the offset they name. -/
theorem scan_of_scanSign {o : Offset} {sign : Int} {hours minutes : Nat} {cs gap rest : List Char}
    (hsign : Offset.scanSign cs = some (sign, fixed 2 hours ++ (gap ++ (fixed 2 minutes ++ rest))))
    (hgap : ∀ c ∈ gap, Offset.isSeparator c = true) (hhours : hours < 100) (hminutes : minutes < 60)
    (ho : o.seconds = sign * (3600 * hours + 60 * minutes)) : Offset.scan cs = some (o, rest) := by
  have hoffset : Offset.ofSeconds? o.seconds = some o := dif_pos ⟨o.lower, o.upper⟩
  simp only [Offset.scan, hsign, Option.bind_eq_bind, Option.bind_some, scanPair_fixed hhours,
    dropWhile_isSeparator hgap, scanPair_fixed (Nat.lt_trans hminutes (by decide)), hminutes,
    if_true, ← ho, hoffset]
  rfl

/-! ### Patterns -/

theorem scan_append (p q : Pattern) (f : Fields) (cs : List Char) :
    Pattern.scan (p ++ q) f cs = (p.scan f cs).bind fun (f, rest) => q.scan f rest := by
  induction p generalizing f cs with
  | nil => rfl
  | cons item p ih =>
    rw [List.cons_append, Pattern.scan, Pattern.scan, Option.bind_assoc]
    congr
    funext x
    exact ih ..

/-- A pattern that fails fails whatever items follow. -/
theorem scan_append_eq_none {p : Pattern} {f : Fields} {cs : List Char} (h : p.scan f cs = none)
    (q : Pattern) : Pattern.scan (p ++ q) f cs = none := by
  rw [scan_append, h]; rfl

/-- A character that does not come next is not read. -/
theorem scan_literal_eq_none {c : Char} {cs : List Char} (h : ∀ d ∈ cs.head?, d ≠ c) (f : Fields) :
    (Item.literal c).scan f cs = none := by
  cases cs with
  | nil => rfl
  | cons d cs => rw [Item.scan, if_neg (h d rfl)]

/-! ### Dates -/

/-- The fields with the year, month and day of a date. -/
def Fields.on (f : Fields) (d : Date) : Fields :=
  { f with year := d.civil.year, month := d.civil.month, day := d.civil.day }

/-- Year, month and day run together. -/
def basicChars (d : Date) : List Char :=
  fixed 4 d.year.natAbs ++ fixed 2 d.civil.month ++ fixed 2 d.civil.day

theorem scan_extendedDate (f : Fields) (d : Date) (cs : List Char) :
    extendedDate.scan f (d.isoChars ++ cs) = some (f.on d, cs) := by
  obtain ⟨hmonth, hday⟩ := d.civil_lt
  simp only [extendedDate, Pattern.scan, Item.scan, Date.isoChars, List.append_assoc,
    List.cons_append, scanYear_hyphen, scanNumber_fixed hmonth, scanNumber_fixed hday, if_true,
    Option.map_some, Option.bind_some]
  rfl

theorem scan_basicDate (f : Fields) {d : Date} (h : 0 ≤ d.year ∧ d.year ≤ 9999) (cs : List Char) :
    basicDate.scan f (basicChars d ++ cs) = some (f.on d, cs) := by
  obtain ⟨hmonth, hday⟩ := d.civil_lt
  have hyear : d.year.natAbs < 10000 := by omega
  simp only [basicDate, Pattern.scan, Item.scan, basicChars, List.append_assoc,
    scanYear_fixed hyear, scanNumber_fixed hmonth, scanNumber_fixed hday, Option.map_some,
    Option.bind_some, Int.natAbs_of_nonneg h.1]
  rfl

/-- With hyphens a date is not basic. -/
theorem scan_basicDate_isoChars (f : Fields) (d : Date) (cs : List Char) :
    basicDate.scan f (d.isoChars ++ cs) = none := by
  simp only [basicDate, Pattern.scan, Item.scan, Date.isoChars, List.append_assoc,
    List.cons_append, scanYear_hyphen, scanNumber_hyphen, Option.map_some, Option.bind_some,
    Option.map_none, Option.bind_none]

/-- Without hyphens a date is not extended. -/
theorem scan_extendedDate_basicChars (f : Fields) {d : Date} (h : 0 ≤ d.year ∧ d.year ≤ 9999)
    (cs : List Char) : extendedDate.scan f (basicChars d ++ cs) = none := by
  have hyear : d.year.natAbs < 10000 := by omega
  have hmonth : ∀ c ∈ (fixed 2 d.civil.month ++ (fixed 2 d.civil.day ++ cs)).head?, c ≠ '-' := by
    intro c hc
    rw [List.head?_append_of_ne_nil _ (fixed_ne_nil (by decide) _)] at hc
    rintro rfl
    exact absurd (isDigit_of_mem_fixed _ _ _ (List.mem_of_mem_head? hc)) (by decide)
  have hscan : Item.year.scan f (basicChars d ++ cs) = some ({ f with year := d.year.natAbs },
      fixed 2 d.civil.month ++ (fixed 2 d.civil.day ++ cs)) := by
    simp only [Item.scan, basicChars, List.append_assoc, scanYear_fixed hyear, Option.map_some]
  simp only [extendedDate, Pattern.scan, hscan, Option.bind_some, scan_literal_eq_none hmonth,
    Option.bind_none]

end Timestamp

end WallCalendar
