import WallCalendar.Proofs.Event.Reading

/-!
The texts that are read as dates.

A date is read from three numbers, and each number may be written in more than one way: blanks may
stand before it, zeros may be missing in front, and a year may have a sign and then any number of
digits. Between hyphens all of these are read. Run together, a number takes digits as long as it
can, so one that could take more needs a blank after it. The texts `YYYY-MM-DD` and `YYYYMMDD` are
those with every number in full; all the others that are read leave something out or put something
in, and they are read all the same.
-/

namespace WallCalendar

open WallCalendar.Text

namespace Timestamp

variable {cs rest : List Char} {s : String} {d : Date}

/-! ### Numbers as they are written -/

/-- The sign of a number. -/
inductive Sign where
  | absent
  | plus
  | minus
  deriving DecidableEq

namespace Sign

/-- The sign as it is written. -/
def chars : Sign → List Char
  | absent => []
  | plus => ['+']
  | minus => ['-']

/-- The number with its sign. -/
def apply : Sign → Nat → Int
  | minus, n => -(n : Int)
  | _, n => n

end Sign

/-- A number as it is written: blanks, perhaps a sign, and digits. -/
structure Numeral where
  blanks : List Char
  sign : Sign
  digits : List Char
  isBlank_of_mem : ∀ c ∈ blanks, isBlank c = true
  isDigit_of_mem : ∀ c ∈ digits, c.isDigit = true
  digits_ne_nil : digits ≠ []

namespace Numeral

/-- The characters of a number. -/
def chars (n : Numeral) : List Char := n.blanks ++ (n.sign.chars ++ n.digits)

/-- The value of the digits. -/
def magnitude (n : Numeral) : Nat := digitsValue n.digits

/-- The value with its sign. -/
def value (n : Numeral) : Int := n.sign.apply n.magnitude

/-- No sign, and no more digits than `most`. -/
def Fits (most : Nat) (n : Numeral) : Prop := n.sign = .absent ∧ n.digits.length ≤ most

/-- Four digits at most, unless there is a sign. -/
def IsYear (n : Numeral) : Prop := n.sign = .absent → n.digits.length ≤ 4

/-- No blanks, no sign, and just so many digits. -/
def IsFull (width : Nat) (n : Numeral) : Prop :=
  n.blanks = [] ∧ n.sign = .absent ∧ n.digits.length = width

/-- The number ends before `rest`: it can take no more digits, or none follows. -/
def StopsAt (most : Nat) (n : Numeral) (rest : List Char) : Prop :=
  n.sign = .absent ∧ n.digits.length = most ∨ EndsDigits rest

theorem skipBlanks_chars (n : Numeral) (rest : List Char) :
    skipBlanks (n.chars ++ rest) = n.sign.chars ++ (n.digits ++ rest) := by
  rw [chars, List.append_assoc, List.append_assoc, skipBlanks_append n.isBlank_of_mem]
  cases n.sign with
  | absent => exact skipBlanks_digits n.isDigit_of_mem n.digits_ne_nil rest
  | plus => exact skipBlanks_cons_of_not (by decide) _
  | minus => exact skipBlanks_cons_of_not (by decide) _

/-- Blanks, a sign and digits in front of a text are a number. -/
theorem exists_of_skipBlanks (sign : Sign) {ds : List Char} (hds : ∀ c ∈ ds, c.isDigit = true)
    (hne : ds ≠ []) (h : skipBlanks cs = sign.chars ++ (ds ++ rest)) :
    ∃ n : Numeral, n.sign = sign ∧ n.digits = ds ∧ cs = n.chars ++ rest := by
  refine ⟨⟨cs.takeWhile isBlank, sign, ds, fun _ => List.mem_takeWhile_imp, hds, hne⟩, rfl, rfl, ?_⟩
  rw [chars, List.append_assoc, List.append_assoc, ← h, takeWhile_append_skipBlanks]

end Numeral

/-! ### Reading one number -/

theorem valueOfDigits_eq_some_iff {ds after : List Char} {k : Nat} :
    valueOfDigits (ds, after) = some (k, rest) ↔ ds ≠ [] ∧ digitsValue ds = k ∧ after = rest := by
  cases ds <;> simp [valueOfDigits]

theorem valueOfDigits_spanDigits_eq_some_iff {most k : Nat} :
    valueOfDigits (spanDigits most cs) = some (k, rest) ↔
      ∃ ds, cs = ds ++ rest ∧ (∀ c ∈ ds, c.isDigit = true) ∧ ds ≠ [] ∧ ds.length ≤ most ∧
        (ds.length = most ∨ EndsDigits rest) ∧ digitsValue ds = k := by
  constructor
  · intro h
    obtain ⟨ds, after, hspan, rfl, hds, hle, hstop⟩ := spanDigits_spec most cs
    rw [hspan, valueOfDigits_eq_some_iff] at h
    obtain ⟨hne, hvalue, rfl⟩ := h
    exact ⟨ds, rfl, hds, hne, hle, hstop, hvalue⟩
  · rintro ⟨ds, rfl, hds, hne, hle, hstop, hvalue⟩
    rw [spanDigits_of_stops hds hle hstop, valueOfDigits_eq_some_iff]
    exact ⟨hne, hvalue, rfl⟩

theorem valueOfDigits_spanAllDigits_eq_some_iff {k : Nat} :
    valueOfDigits (spanAllDigits cs) = some (k, rest) ↔
      ∃ ds, cs = ds ++ rest ∧ (∀ c ∈ ds, c.isDigit = true) ∧ ds ≠ [] ∧ EndsDigits rest ∧
        digitsValue ds = k := by
  constructor
  · intro h
    obtain ⟨ds, after, hspan, rfl, hds, hend⟩ := spanAllDigits_spec cs
    rw [hspan, valueOfDigits_eq_some_iff] at h
    obtain ⟨hne, hvalue, rfl⟩ := h
    exact ⟨ds, rfl, hds, hne, hend, hvalue⟩
  · rintro ⟨ds, rfl, hds, hne, hend, hvalue⟩
    rw [spanAllDigits_append hds hend, valueOfDigits_eq_some_iff]
    exact ⟨hne, hvalue, rfl⟩

/-- Months and days are read from numbers without a sign, of two digits at most. -/
theorem scanNumber_eq_some_iff {k : Nat} : scanNumber cs = some (k, rest) ↔
    ∃ n : Numeral, n.Fits 2 ∧ n.StopsAt 2 rest ∧ cs = n.chars ++ rest ∧ n.magnitude = k := by
  rw [scanNumber, valueOfDigits_spanDigits_eq_some_iff]
  constructor
  · rintro ⟨ds, hsplit, hds, hne, hle, hstop, hvalue⟩
    obtain ⟨n, hsign, rfl, hcs⟩ := Numeral.exists_of_skipBlanks .absent hds hne hsplit
    exact ⟨n, ⟨hsign, hle⟩, hstop.imp_left (And.intro hsign), hcs, hvalue⟩
  · rintro ⟨n, ⟨hsign, hle⟩, hstop, rfl, hvalue⟩
    refine ⟨n.digits, ?_, n.isDigit_of_mem, n.digits_ne_nil, hle, hstop.imp_left And.right, hvalue⟩
    rw [n.skipBlanks_chars, hsign]
    rfl

theorem scanYear_skipBlanks (cs : List Char) : scanYear (skipBlanks cs) = scanYear cs := by
  rw [scanYear, skipBlanks_skipBlanks, scanYear]

/-- A sign may be followed by any number of digits. -/
theorem exists_of_signed {sign : Sign} {after : List Char} {m : Nat} (hsigned : sign ≠ .absent)
    (h : skipBlanks cs = sign.chars ++ after)
    (hm : valueOfDigits (spanAllDigits after) = some (m, rest)) :
    ∃ n : Numeral, n.IsYear ∧ n.StopsAt 4 rest ∧ cs = n.chars ++ rest ∧
      n.value = sign.apply m := by
  obtain ⟨ds, rfl, hds, hne, hend, rfl⟩ := valueOfDigits_spanAllDigits_eq_some_iff.mp hm
  obtain ⟨n, rfl, rfl, hcs⟩ := Numeral.exists_of_skipBlanks sign hds hne h
  exact ⟨n, fun habsent => absurd habsent hsigned, .inr hend, hcs, rfl⟩

/-- Years are read from numbers of four digits at most, and from numbers with a sign. -/
theorem scanYear_eq_some_iff {k : Int} : scanYear cs = some (k, rest) ↔
    ∃ n : Numeral, n.IsYear ∧ n.StopsAt 4 rest ∧ cs = n.chars ++ rest ∧ n.value = k := by
  constructor
  · intro h
    unfold scanYear at h
    split at h
    next after heq =>
      obtain ⟨⟨m, _⟩, hm, hk⟩ := Option.map_eq_some_iff.mp h
      cases hk
      exact exists_of_signed (by decide : Sign.minus ≠ .absent) heq hm
    next after heq =>
      obtain ⟨⟨m, _⟩, hm, hk⟩ := Option.map_eq_some_iff.mp h
      cases hk
      exact exists_of_signed (by decide : Sign.plus ≠ .absent) heq hm
    next =>
      obtain ⟨⟨m, _⟩, hm, hk⟩ := Option.map_eq_some_iff.mp h
      cases hk
      obtain ⟨ds, hsplit, hds, hne, hle, hstop, rfl⟩ :=
        valueOfDigits_spanDigits_eq_some_iff.mp hm
      obtain ⟨n, hsign, rfl, hcs⟩ := Numeral.exists_of_skipBlanks .absent hds hne hsplit
      exact ⟨n, fun _ => hle, hstop.imp_left (And.intro hsign), hcs,
        by rw [Numeral.value, hsign]; rfl⟩
  · rintro ⟨n, hyear, hstop, rfl, rfl⟩
    rw [← scanYear_skipBlanks, n.skipBlanks_chars, Numeral.value, Numeral.magnitude]
    cases hsign : n.sign with
    | absent =>
      have hvalue : valueOfDigits (spanDigits 4 (n.digits ++ rest)) =
          some (digitsValue n.digits, rest) :=
        valueOfDigits_spanDigits_eq_some_iff.mpr ⟨_, rfl, n.isDigit_of_mem, n.digits_ne_nil,
          hyear hsign, hstop.imp_left And.right, rfl⟩
      rw [Sign.chars, List.nil_append, scanYear_digits n.isDigit_of_mem n.digits_ne_nil, hvalue]
      rfl
    | plus | minus =>
      have hend : EndsDigits rest :=
        hstop.resolve_left fun h => absurd (hsign.symm.trans h.1) (by decide)
      have hvalue : valueOfDigits (spanAllDigits (n.digits ++ rest)) =
          some (digitsValue n.digits, rest) :=
        valueOfDigits_spanAllDigits_eq_some_iff.mpr
          ⟨_, rfl, n.isDigit_of_mem, n.digits_ne_nil, hend, rfl⟩
      rw [Sign.chars, List.singleton_append, scanYear, skipBlanks_cons_of_not (by decide)]
      simp only [hvalue, Option.map_some]
      rfl

/-! ### Reading the three numbers of a date -/

/-- The three numbers of a date as they are written. -/
structure DateText where
  year : Numeral
  month : Numeral
  day : Numeral
  isYear : year.IsYear
  month_fits : month.Fits 2
  day_fits : day.Fits 2

namespace DateText

/-- The civil date that the numbers name. -/
def civil (t : DateText) : Civil := ⟨t.year.value, t.month.magnitude, t.day.magnitude⟩

/-- The numbers with hyphens between them. -/
def extended (t : DateText) : List Char :=
  t.year.chars ++ '-' :: (t.month.chars ++ '-' :: t.day.chars)

/-- The numbers run together. -/
def basic (t : DateText) : List Char := t.year.chars ++ (t.month.chars ++ t.day.chars)

/-- A number that could take more digits has a blank after it. -/
def IsSeparated (t : DateText) : Prop :=
  (t.year.sign = .absent ∧ t.year.digits.length = 4 ∨ t.month.blanks ≠ []) ∧
    (t.month.digits.length = 2 ∨ t.day.blanks ≠ [])

/-- The text consists of the numbers, in one of the two forms. -/
def Writes (t : DateText) (s : String) : Prop :=
  s.toList = t.extended ∨ t.IsSeparated ∧ s.toList = t.basic

/-- Four, two and two digits, and nothing else. -/
def IsFull (t : DateText) : Prop := t.year.IsFull 4 ∧ t.month.IsFull 2 ∧ t.day.IsFull 2

end DateText

/-- A number is not run into by the digits before it just when it has blanks. -/
theorem Numeral.endsDigits_chars {n : Numeral} (h : n.sign = .absent) (rest : List Char) :
    EndsDigits (n.chars ++ rest) ↔ n.blanks ≠ [] := by
  rw [chars, h, Sign.chars, List.nil_append]
  cases hblanks : n.blanks with
  | nil =>
    obtain ⟨c, ds, hdigits⟩ := List.exists_cons_of_ne_nil n.digits_ne_nil
    have hc : c.isDigit = true := n.isDigit_of_mem c (hdigits ▸ List.mem_cons_self ..)
    rw [hdigits, List.nil_append, List.cons_append, endsDigits_cons, hc]
    simp
  | cons c blanks =>
    have hc : isBlank c = true := n.isBlank_of_mem c (hblanks ▸ List.mem_cons_self ..)
    have hdigit : c.isDigit = false := by
      cases hdigit : c.isDigit with
      | false => rfl
      | true => rw [isBlank_of_isDigit hdigit] at hc; cases hc
    rw [List.cons_append, List.cons_append, endsDigits_cons, hdigit]
    simp

theorem DateText.isSeparated_iff {t : DateText} : t.IsSeparated ↔
    t.year.StopsAt 4 (t.month.chars ++ t.day.chars) ∧ t.month.StopsAt 2 t.day.chars := by
  have hday := Numeral.endsDigits_chars t.day_fits.1 []
  rw [List.append_nil] at hday
  rw [Numeral.StopsAt, Numeral.endsDigits_chars t.month_fits.1, Numeral.StopsAt, hday,
    and_iff_right t.month_fits.1]
  rfl

theorem endsDigits_hyphen (rest : List Char) : EndsDigits ('-' :: rest) := endsDigits_cons.mpr rfl

theorem scan_cons_eq_some_iff {item : Item} {p : Pattern} {f g : Fields} :
    Pattern.scan (item :: p) f cs = some (g, rest) ↔
      ∃ f' mid, item.scan f cs = some (f', mid) ∧ p.scan f' mid = some (g, rest) := by
  rw [Pattern.scan, Option.bind_eq_some_iff, Prod.exists]

theorem scan_literal_eq_some_iff {c : Char} {f g : Fields} :
    (Item.literal c).scan f cs = some (g, rest) ↔ f = g ∧ cs = c :: rest := by
  cases cs with
  | nil => simp [Item.scan]
  | cons d cs =>
    rw [Item.scan, Option.ite_none_right_eq_some, Option.some_inj, Prod.mk.injEq, List.cons.injEq]
    exact and_left_comm

theorem scan_year_eq_some_iff {f g : Fields} : Item.year.scan f cs = some (g, rest) ↔
    ∃ n : Numeral, n.IsYear ∧ n.StopsAt 4 rest ∧ cs = n.chars ++ rest ∧
      { f with year := n.value } = g := by
  simp only [Item.scan, Option.map_eq_some_iff, Prod.exists, Prod.mk.injEq, scanYear_eq_some_iff]
  constructor
  · rintro ⟨k, mid, ⟨n, hyear, hstop, hcs, rfl⟩, hg, rfl⟩
    exact ⟨n, hyear, hstop, hcs, hg⟩
  · rintro ⟨n, hyear, hstop, hcs, hg⟩
    exact ⟨_, _, ⟨n, hyear, hstop, hcs, rfl⟩, hg, rfl⟩

theorem map_scanNumber_eq_some_iff {g : Fields} (set : Nat → Fields) :
    (scanNumber cs).map (fun x => (set x.1, x.2)) = some (g, rest) ↔
      ∃ n : Numeral, n.Fits 2 ∧ n.StopsAt 2 rest ∧ cs = n.chars ++ rest ∧ set n.magnitude = g := by
  simp only [Option.map_eq_some_iff, Prod.exists, Prod.mk.injEq, scanNumber_eq_some_iff]
  constructor
  · rintro ⟨k, mid, ⟨n, hfits, hstop, hcs, rfl⟩, hg, rfl⟩
    exact ⟨n, hfits, hstop, hcs, hg⟩
  · rintro ⟨n, hfits, hstop, hcs, hg⟩
    exact ⟨_, _, ⟨n, hfits, hstop, hcs, rfl⟩, hg, rfl⟩

theorem scan_month_eq_some_iff {f g : Fields} : Item.month.scan f cs = some (g, rest) ↔
    ∃ n : Numeral, n.Fits 2 ∧ n.StopsAt 2 rest ∧ cs = n.chars ++ rest ∧
      { f with month := n.magnitude } = g :=
  map_scanNumber_eq_some_iff fun k => { f with month := k }

theorem scan_day_eq_some_iff {f g : Fields} : Item.day.scan f cs = some (g, rest) ↔
    ∃ n : Numeral, n.Fits 2 ∧ n.StopsAt 2 rest ∧ cs = n.chars ++ rest ∧
      { f with day := n.magnitude } = g :=
  map_scanNumber_eq_some_iff fun k => { f with day := k }

theorem date?_eq_some_iff {p : Pattern} : p.date? cs = some d ↔
    ∃ f, p.scan {} cs = some (f, []) ∧ d.civil = ⟨f.year, f.month, f.day⟩ := by
  simp only [Pattern.date?, Option.bind_eq_some_iff, read_eq_some_iff, Fields.date?,
    Date.ofCivil?_eq_some_iff_civil]

/-- With hyphens, every way to write the three numbers is read. -/
theorem date?_extendedDate_iff :
    extendedDate.date? cs = some d ↔ ∃ t : DateText, cs = t.extended ∧ d.civil = t.civil := by
  rw [date?_eq_some_iff]
  constructor
  · rintro ⟨f, hscan, hcivil⟩
    obtain ⟨_, _, hyear, hafterYear⟩ := scan_cons_eq_some_iff.mp hscan
    obtain ⟨y, hy, -, rfl, rfl⟩ := scan_year_eq_some_iff.mp hyear
    obtain ⟨_, _, hfirst, hfromMonth⟩ := scan_cons_eq_some_iff.mp hafterYear
    obtain ⟨rfl, rfl⟩ := scan_literal_eq_some_iff.mp hfirst
    obtain ⟨_, _, hmonth, hafterMonth⟩ := scan_cons_eq_some_iff.mp hfromMonth
    obtain ⟨m, hm, -, rfl, rfl⟩ := scan_month_eq_some_iff.mp hmonth
    obtain ⟨_, _, hsecond, hfromDay⟩ := scan_cons_eq_some_iff.mp hafterMonth
    obtain ⟨rfl, rfl⟩ := scan_literal_eq_some_iff.mp hsecond
    obtain ⟨_, _, hday, hrest⟩ := scan_cons_eq_some_iff.mp hfromDay
    obtain ⟨k, hk, -, rfl, rfl⟩ := scan_day_eq_some_iff.mp hday
    cases hrest
    exact ⟨⟨y, m, k, hy, hm, hk⟩, by rw [DateText.extended, List.append_nil], hcivil⟩
  · rintro ⟨t, rfl, hcivil⟩
    refine ⟨{ year := t.year.value, month := t.month.magnitude, day := t.day.magnitude }, ?_,
      hcivil⟩
    refine scan_cons_eq_some_iff.mpr ⟨_, _, scan_year_eq_some_iff.mpr
      ⟨t.year, t.isYear, .inr (endsDigits_hyphen _), rfl, rfl⟩, ?_⟩
    refine scan_cons_eq_some_iff.mpr ⟨_, _, scan_literal_eq_some_iff.mpr ⟨rfl, rfl⟩, ?_⟩
    refine scan_cons_eq_some_iff.mpr ⟨_, _, scan_month_eq_some_iff.mpr
      ⟨t.month, t.month_fits, .inr (endsDigits_hyphen _), rfl, rfl⟩, ?_⟩
    refine scan_cons_eq_some_iff.mpr ⟨_, _, scan_literal_eq_some_iff.mpr ⟨rfl, rfl⟩, ?_⟩
    exact scan_cons_eq_some_iff.mpr ⟨_, _, scan_day_eq_some_iff.mpr
      ⟨t.day, t.day_fits, .inr endsDigits_nil, (List.append_nil _).symm, rfl⟩, rfl⟩

/-- Run together, the numbers are read if no digit of one is taken for another. -/
theorem date?_basicDate_iff : basicDate.date? cs = some d ↔
    ∃ t : DateText, t.IsSeparated ∧ cs = t.basic ∧ d.civil = t.civil := by
  rw [date?_eq_some_iff]
  constructor
  · rintro ⟨f, hscan, hcivil⟩
    obtain ⟨_, _, hyear, hfromMonth⟩ := scan_cons_eq_some_iff.mp hscan
    obtain ⟨y, hy, hystop, rfl, rfl⟩ := scan_year_eq_some_iff.mp hyear
    obtain ⟨_, _, hmonth, hfromDay⟩ := scan_cons_eq_some_iff.mp hfromMonth
    obtain ⟨m, hm, hmstop, rfl, rfl⟩ := scan_month_eq_some_iff.mp hmonth
    obtain ⟨_, _, hday, hrest⟩ := scan_cons_eq_some_iff.mp hfromDay
    obtain ⟨k, hk, -, rfl, rfl⟩ := scan_day_eq_some_iff.mp hday
    cases hrest
    rw [List.append_nil] at hystop hmstop ⊢
    exact ⟨⟨y, m, k, hy, hm, hk⟩, DateText.isSeparated_iff.mpr ⟨hystop, hmstop⟩, rfl, hcivil⟩
  · rintro ⟨t, hseparated, rfl, hcivil⟩
    obtain ⟨hyear, hmonth⟩ := DateText.isSeparated_iff.mp hseparated
    refine ⟨{ year := t.year.value, month := t.month.magnitude, day := t.day.magnitude }, ?_,
      hcivil⟩
    refine scan_cons_eq_some_iff.mpr ⟨_, _, scan_year_eq_some_iff.mpr
      ⟨t.year, t.isYear, hyear, rfl, rfl⟩, ?_⟩
    refine scan_cons_eq_some_iff.mpr ⟨_, _, scan_month_eq_some_iff.mpr
      ⟨t.month, t.month_fits, hmonth, rfl, rfl⟩, ?_⟩
    exact scan_cons_eq_some_iff.mpr ⟨_, _, scan_day_eq_some_iff.mpr
      ⟨t.day, t.day_fits, .inr endsDigits_nil, (List.append_nil _).symm, rfl⟩, rfl⟩

/-- A text is read as a date just when it writes the numbers of the date. -/
theorem parseDate_eq_some_iff :
    parseDate s = some d ↔ ∃ t : DateText, t.Writes s ∧ d.civil = t.civil := by
  have hpatterns : parseDate s = some d ↔
      extendedDate.date? s.toList = some d ∨ basicDate.date? s.toList = some d := by
    rw [parseDate, findSome?_patterns_eq_some_iff clashes_datePatterns fun p hp => by
      rw [Pattern.date?, hp, Option.bind_none]]
    simp [datePatterns]
  rw [hpatterns, date?_extendedDate_iff, date?_basicDate_iff, ← exists_or]
  refine exists_congr fun t => ?_
  rw [← and_assoc, ← or_and_right]
  rfl

/-! ### Dates written in full -/

namespace Numeral

variable {n : Numeral} {width k : Nat}

theorem chars_of_isFull (h : n.IsFull width) : n.chars = fixed width n.magnitude := by
  obtain ⟨hblanks, hsign, hlength⟩ := h
  rw [chars, hblanks, hsign, magnitude, ← hlength, fixed_digitsValue n.isDigit_of_mem]
  rfl

theorem magnitude_lt_of_isFull (h : n.IsFull width) : n.magnitude < 10 ^ width := by
  rw [magnitude, ← h.2.2]
  exact digitsValue_lt n.isDigit_of_mem

theorem value_of_isFull (h : n.IsFull width) : n.value = n.magnitude := by
  rw [value, h.2.1]
  rfl

/-- Digits alone leave no room for blanks and signs. -/
theorem isFull_of_chars (h : n.chars = fixed width k) : n.IsFull width := by
  have hdigit : ∀ c ∈ n.chars, c.isDigit = true := h ▸ isDigit_of_mem_fixed width k
  have hblanks : n.blanks = [] := by
    cases hcases : n.blanks with
    | nil => rfl
    | cons c blanks =>
      have hmem : c ∈ n.blanks := hcases ▸ List.mem_cons_self ..
      have hnot := isBlank_of_isDigit (hdigit c (List.mem_append_left _ hmem))
      rw [n.isBlank_of_mem c hmem] at hnot
      cases hnot
  have hsign : n.sign = .absent := by
    cases hcases : n.sign with
    | absent => rfl
    | plus =>
      have hmem : '+' ∈ n.chars := by simp [chars, hcases, Sign.chars]
      exact absurd (hdigit _ hmem) (by decide)
    | minus =>
      have hmem : '-' ∈ n.chars := by simp [chars, hcases, Sign.chars]
      exact absurd (hdigit _ hmem) (by decide)
  refine ⟨hblanks, hsign, ?_⟩
  rw [chars, hblanks, hsign] at h
  rw [← length_fixed width k, ← h]
  rfl

/-- A year in front of a text that begins with four digits is these four digits. -/
theorem isFull_of_year {rest' : List Char} (hyear : n.IsYear) (hstop : n.StopsAt 4 rest)
    (hk : k < 10000) (h : n.chars ++ rest = fixed 4 k ++ rest') : n.IsFull 4 ∧ rest = rest' := by
  have hscan := scanYear_eq_some_iff.mpr ⟨n, hyear, hstop, rfl, rfl⟩
  rw [h, scanYear_fixed hk] at hscan
  obtain ⟨-, rfl⟩ := Prod.mk.inj (Option.some.inj hscan)
  exact ⟨isFull_of_chars (List.append_cancel_right h), rfl⟩

/-- A month or a day in front of a text that begins with two digits is these two digits. -/
theorem isFull_of_pair {rest' : List Char} (hfits : n.Fits 2) (hstop : n.StopsAt 2 rest)
    (hk : k < 100) (h : n.chars ++ rest = fixed 2 k ++ rest') : n.IsFull 2 ∧ rest = rest' := by
  have hscan := scanNumber_eq_some_iff.mpr ⟨n, hfits, hstop, rfl, rfl⟩
  rw [h, scanNumber_fixed hk] at hscan
  obtain ⟨-, rfl⟩ := Prod.mk.inj (Option.some.inj hscan)
  exact ⟨isFull_of_chars (List.append_cancel_right h), rfl⟩

end Numeral

/-- The text is `YYYY-MM-DD` or `YYYYMMDD` for the date `d`, in digits throughout. -/
def WrittenInFull (d : Date) (s : String) : Prop :=
  (0 ≤ d.year ∧ d.year ≤ 9999) ∧ (s.toList = d.isoChars ∨ s.toList = basicChars d)

theorem isoChars_of_year (h : 0 ≤ d.year ∧ d.year ≤ 9999) : d.isoChars =
    fixed 4 d.year.natAbs ++ '-' :: (fixed 2 d.civil.month ++ '-' :: fixed 2 d.civil.day) := by
  have hyear : Date.yearChars d.civil.year = fixed 4 d.year.natAbs := if_pos h
  rw [Date.isoChars, hyear, List.append_assoc]
  rfl

theorem length_of_writtenInFull (h : WrittenInFull d s) :
    s.toList.length = 10 ∨ s.toList.length = 8 := by
  obtain ⟨hyear, hiso | hbasic⟩ := h
  · left
    rw [hiso, isoChars_of_year hyear]
    simp
  · right
    rw [hbasic, basicChars]
    simp

namespace DateText

variable {t : DateText}

/-- Three numbers in full write the date they name in full. -/
theorem writtenInFull_of_isFull (h : t.IsFull) (hwrites : t.Writes s) (hcivil : d.civil = t.civil) :
    WrittenInFull d s := by
  obtain ⟨hyear, hmonth, hday⟩ := h
  have hvalue : d.year = t.year.magnitude :=
    (congrArg Civil.year hcivil).trans (Numeral.value_of_isFull hyear)
  have hlt := Numeral.magnitude_lt_of_isFull hyear
  have hrange : 0 ≤ d.year ∧ d.year ≤ 9999 := by rw [hvalue]; omega
  have hnumber : d.year.natAbs = t.year.magnitude := by rw [hvalue, Int.natAbs_natCast]
  have hmonth' : d.civil.month = t.month.magnitude := congrArg Civil.month hcivil
  have hday' : d.civil.day = t.day.magnitude := congrArg Civil.day hcivil
  refine ⟨hrange, hwrites.imp ?_ fun h => ?_⟩
  · intro hs
    rw [hs, isoChars_of_year hrange, hnumber, hmonth', hday', extended,
      Numeral.chars_of_isFull hyear, Numeral.chars_of_isFull hmonth, Numeral.chars_of_isFull hday]
  · rw [h.2, basicChars, hnumber, hmonth', hday', basic, Numeral.chars_of_isFull hyear,
      Numeral.chars_of_isFull hmonth, Numeral.chars_of_isFull hday, List.append_assoc]

/-- Only numbers in full write a date in full. -/
theorem isFull_of_writtenInFull (h : WrittenInFull d s) (hwrites : t.Writes s) : t.IsFull := by
  obtain ⟨hrange, hs⟩ := h
  have hyear : d.year.natAbs < 10000 := by omega
  have hmonth := d.civil_lt.1
  rcases hs with hiso | hbasic <;> rcases hwrites with hextended | ⟨hseparated, hrun⟩
  · rw [hiso, isoChars_of_year hrange] at hextended
    obtain ⟨hfour, hfromMonth⟩ :=
      Numeral.isFull_of_year t.isYear (.inr (endsDigits_hyphen _)) hyear hextended.symm
    obtain ⟨htwo, hfromDay⟩ := Numeral.isFull_of_pair t.month_fits
      (.inr (endsDigits_hyphen _)) hmonth (List.cons.inj hfromMonth).2
    exact ⟨hfour, htwo, Numeral.isFull_of_chars (List.cons.inj hfromDay).2⟩
  · -- the month would begin with the hyphen
    obtain ⟨hyearStops, hmonthStops⟩ := isSeparated_iff.mp hseparated
    rw [hiso, isoChars_of_year hrange] at hrun
    obtain ⟨-, hfromMonth⟩ := Numeral.isFull_of_year t.isYear hyearStops hyear hrun.symm
    have hscan := scanNumber_eq_some_iff.mpr ⟨t.month, t.month_fits, hmonthStops, rfl, rfl⟩
    rw [hfromMonth, scanNumber_hyphen] at hscan
    cases hscan
  · -- a digit would be a hyphen
    rw [hbasic, basicChars, List.append_assoc] at hextended
    obtain ⟨-, hfromMonth⟩ :=
      Numeral.isFull_of_year t.isYear (.inr (endsDigits_hyphen _)) hyear hextended.symm
    have hscan := scanNumber_fixed hmonth (fixed 2 d.civil.day)
    rw [← hfromMonth, scanNumber_hyphen] at hscan
    cases hscan
  · obtain ⟨hyearStops, hmonthStops⟩ := isSeparated_iff.mp hseparated
    rw [hbasic, basicChars, List.append_assoc] at hrun
    obtain ⟨hfour, hfromMonth⟩ := Numeral.isFull_of_year t.isYear hyearStops hyear hrun.symm
    obtain ⟨htwo, hday⟩ := Numeral.isFull_of_pair t.month_fits hmonthStops hmonth hfromMonth
    exact ⟨hfour, htwo, Numeral.isFull_of_chars hday⟩

end DateText

theorem parseDate_of_writtenInFull (h : WrittenInFull d s) : parseDate s = some d := by
  obtain ⟨hrange, hs | hs⟩ := h
  · rw [← String.ofList_toList (s := s), hs]
    exact parseDate_isoChars d
  · rw [← String.ofList_toList (s := s), hs]
    exact parseDate_basicChars hrange

/-- A text is read as a date just when it writes the year, the month and the day of the date, each
in any of the ways in which a number may be written. A date in full is always read, but it is not
all that is read: a text that is read is in full just when its three numbers are, without blanks,
signs and missing zeros. An end of an entry is reported as unreadable just when it writes no date in
any way. -/
theorem parseDate_texts (s : String) (d : Date) :
    (parseDate s = some d ↔ ∃ t : DateText, t.Writes s ∧ d.civil = t.civil) ∧
    (WrittenInFull d s → parseDate s = some d) ∧
    (∀ t : DateText, t.Writes s → d.civil = t.civil → (WrittenInFull d s ↔ t.IsFull)) ∧
    ∀ e : Entry, e.readDate s = .error (.unreadable e.title s) ↔
      ∀ (t : DateText) (d : Date), t.Writes s → d.civil ≠ t.civil := by
  refine ⟨parseDate_eq_some_iff, parseDate_of_writtenInFull, fun t hwrites hcivil => ?_,
    fun e => ?_⟩
  · exact ⟨fun h => DateText.isFull_of_writtenInFull h hwrites,
      fun h => DateText.writtenInFull_of_isFull h hwrites hcivil⟩
  · rw [Entry.readDate_eq_error_iff, and_iff_left rfl, Option.eq_none_iff_forall_ne_some]
    simp only [ne_eq, parseDate_eq_some_iff, not_exists, not_and]
    exact forall_comm

end Timestamp

namespace Sample

/-- A number as it is written. -/
def numeral (blanks digits : List Char) (hblanks : blanks.all isBlank = true := by rfl)
    (hdigits : digits.all Char.isDigit = true := by rfl) (hne : digits ≠ [] := by decide) :
    Timestamp.Numeral :=
  ⟨blanks, .absent, digits, List.all_eq_true.mp hblanks, List.all_eq_true.mp hdigits, hne⟩

/-- The first of July, with a blank and without zeros. -/
def julyFirst : Timestamp.DateText where
  year := numeral [] ['2', '0', '2', '5']
  month := numeral [' '] ['7']
  day := numeral [] ['1']
  isYear := fun _ => by decide
  month_fits := ⟨rfl, by decide⟩
  day_fits := ⟨rfl, by decide⟩

/-- An entry whose first date has lost its last digit. -/
def regatta : Entry where
  title := "Regatta"
  startAt := "2025071"
  endAt := "20250712"

end Sample

/-- A date that has lost its last digit is read as another day of the month. -/
theorem Timestamp.parseDate_cutShort :
    parseDate "2025071" = some (Sample.day 2025 7 1) ∧ (¬ ∃ d, WrittenInFull d "2025071") ∧
    ∃ e, Event.ofEntry .utc Sample.regatta = .ok e ∧ e.startDate = Sample.day 2025 7 1 := by
  refine ⟨by decide, ?_, ⟨_, rfl, by decide⟩⟩
  rintro ⟨d, hd⟩
  rcases length_of_writtenInFull hd with hlength | hlength <;> exact absurd hlength (by decide)

/-- The first of July with a blank and without zeros is read, and in full it is too. -/
theorem Timestamp.parseDate_texts_sample :
    parseDate "2025- 7-1" = some (Sample.day 2025 7 1) ∧
    ¬ WrittenInFull (Sample.day 2025 7 1) "2025- 7-1" ∧
    WrittenInFull (Sample.day 2025 7 1) "20250701" ∧
    parseDate "20250701" = some (Sample.day 2025 7 1) := by
  have hwrites : Sample.julyFirst.Writes "2025- 7-1" := .inl (by decide)
  have hcivil : (Sample.day 2025 7 1).civil = Sample.julyFirst.civil := by decide
  obtain ⟨hread, -, hfull, -⟩ := parseDate_texts "2025- 7-1" (Sample.day 2025 7 1)
  obtain ⟨-, hback, -, -⟩ := parseDate_texts "20250701" (Sample.day 2025 7 1)
  have hdigits : WrittenInFull (Sample.day 2025 7 1) "20250701" :=
    ⟨by decide, .inr (by decide)⟩
  refine ⟨hread.mpr ⟨_, hwrites, hcivil⟩, ?_, hdigits, hback hdigits⟩
  rw [hfull _ hwrites hcivil]
  exact fun h => absurd h.2.1.2.2 (by decide)

end WallCalendar
