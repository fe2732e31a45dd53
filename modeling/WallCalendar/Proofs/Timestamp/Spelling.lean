import WallCalendar.Proofs.Moment
import WallCalendar.Proofs.Timestamp.Form

/-!
Spelled timestamps, and what they are read as.

Without a suffix a moment is read as it is written. A suffix makes it an instant, which is moved to
the zone of the calendar, so two spellings of one instant are read as the same local moment.
-/

namespace WallCalendar

open WallCalendar.Text

namespace Timestamp

variable {m : Moment} {cs : List Char} {form : Form}

/-! ### Suffixes -/

/-- A sign, hours and minutes: any offset of whole minutes, less than a day either way. -/
structure Zone where
  negative : Bool
  hours : Fin 24
  minutes : Fin 60
  deriving DecidableEq, Repr

namespace Zone

/-- The seconds that a zone is ahead. -/
def seconds (z : Zone) : Int :=
  (if z.negative then -1 else 1) * (3600 * (z.hours : Nat) + 60 * (z.minutes : Nat))

/-- The offset that a zone names. -/
def offset (z : Zone) : Offset where
  seconds := z.seconds
  lower := by unfold seconds; split <;> omega
  upper := by unfold seconds; split <;> omega

/-- The text of a zone, as in `+05:30`. -/
def chars (z : Zone) : List Char :=
  (if z.negative then '-' else '+') :: fixed 2 z.hours ++ ':' :: fixed 2 z.minutes

theorem endsTime_chars (z : Zone) : EndsTime z.chars := by
  intro c hc
  rw [← Option.some.inj hc]
  split
  · exact .inr rfl
  · exact .inl rfl

theorem scan_chars (z : Zone) : Offset.scan z.chars = some (z.offset, []) := by
  have hsign : Offset.scanSign z.chars = some (if z.negative then -1 else 1,
      fixed 2 z.hours ++ ([':'] ++ (fixed 2 z.minutes ++ []))) := by
    unfold chars
    rw [List.append_nil]
    cases z.negative <;> rfl
  have hgap : ∀ c ∈ [':'], Offset.isSeparator c = true := by
    intro c hc
    rw [List.mem_singleton.mp hc]
    rfl
  exact scan_of_scanSign hsign hgap (by omega) z.minutes.isLt rfl

/-- Every offset of whole minutes is that of a zone. -/
theorem exists_offset_eq {o : Offset} (h : o.seconds % 60 = 0) : ∃ z : Zone, z.offset = o := by
  obtain ⟨n, hlower, hupper⟩ := o
  refine ⟨⟨decide (n < 0), ⟨n.natAbs / 3600, by omega⟩, ⟨n.natAbs / 60 % 60, by omega⟩⟩, ?_⟩
  simp only [offset, seconds, Offset.mk.injEq, decide_eq_true_eq] at h ⊢
  split <;> omega

theorem skipBlanks_chars (z : Zone) : skipBlanks z.chars = z.chars := by
  refine skipBlanks_cons_of_not ?_ _
  split <;> decide

end Zone

/-! ### Reading a form -/

theorem read_pattern (hfits : form.Fits m) :
    form.pattern.read (form.chars m) = some (Fields.ofMoment m) := by
  have hscan := scan_pattern hfits endsTime_nil
  rw [List.append_nil] at hscan
  rw [Pattern.read, hscan]

theorem read_pattern_offset (hfits : form.Fits m) (z : Zone) :
    Pattern.read (form.pattern ++ [.offset]) (form.chars m ++ z.chars) =
      some { Fields.ofMoment m with offset := z.offset } := by
  rw [Pattern.read, scan_append, scan_pattern hfits z.endsTime_chars]
  simp only [Option.bind_some, Pattern.scan, Item.scan, z.skipBlanks_chars, z.scan_chars,
    Option.map_some]

theorem read_eq_none {p : Pattern} (h : p.scan {} cs = none) : p.read cs = none := by
  rw [Pattern.read, h]

/-- Without a suffix, a form is read as the moment it spells. -/
theorem parseFloating_chars (hclock : m.time.IsClock) (hfits : form.Fits m) :
    parseFloating (form.chars m) = some m := by
  have hmoment : form.pattern.moment? (form.chars m) = some m := by
    rw [Pattern.moment?, read_pattern hfits, Option.bind_some, moment?_ofMoment hclock]
  have hearlier : ∀ p ∈ form.earlier, p.moment? (form.chars m) = none := by
    intro p hp
    have hscan := scan_earlier hp hfits endsTime_nil {}
    rw [List.append_nil] at hscan
    rw [Pattern.moment?, read_eq_none hscan, Option.bind_none]
  obtain ⟨later, hlater⟩ : ∃ later, floatingPatterns = form.earlier ++ form.pattern :: later := by
    cases form <;> exact ⟨_, rfl⟩
  exact List.findSome?_eq_some_iff.mpr ⟨_, _, later, hlater, hmoment, hearlier⟩

/-- With an offset, a form is read as the moment it spells less the offset. -/
theorem parseInstant_chars {u : Moment} (hclock : m.time.IsClock) (hfits : form.Fits m) {z : Zone}
    (hu : m.IsAfter (-z.offset.seconds) u) : parseInstant (form.chars m ++ z.chars) = some u := by
  have hinstant : Pattern.instant? (form.pattern ++ [.offset]) (form.chars m ++ z.chars) =
      some u := by
    have hshift : ({ Fields.ofMoment m with offset := z.offset } : Fields).instant? =
        (Fields.ofMoment m).moment?.bind (·.shift? (-z.offset.seconds)) := rfl
    rw [Pattern.instant?, read_pattern_offset hfits, Option.bind_some, hshift,
      moment?_ofMoment hclock, Option.bind_some, Moment.shift?_eq_some_iff.mpr hu]
  have hearlier : ∀ p ∈ form.earlier.map (· ++ [Item.offset]),
      Pattern.instant? p (form.chars m ++ z.chars) = none := by
    intro p hp
    obtain ⟨q, hq, rfl⟩ := List.mem_map.mp hp
    have hscan := scan_append_eq_none (scan_earlier hq hfits z.endsTime_chars {}) [.offset]
    rw [Pattern.instant?, read_eq_none hscan, Option.bind_none]
  obtain ⟨later, hlater⟩ : ∃ later, offsetPatterns =
      form.earlier.map (· ++ [Item.offset]) ++ (form.pattern ++ [.offset]) :: later := by
    cases form <;> exact ⟨_, rfl⟩
  exact List.findSome?_eq_some_iff.mpr ⟨_, _, later, hlater, hinstant, hearlier⟩

/-- Without a suffix, no pattern with an offset reads a form. -/
theorem scan_offsetPatterns {p : Pattern} (hp : p ∈ offsetPatterns) (hfits : form.Fits m) :
    p.scan {} (form.chars m) = none := by
  rw [← List.append_nil (form.chars m)]
  have hown : Pattern.scan (form.pattern ++ [.offset]) {} (form.chars m ++ []) = none := by
    rw [scan_append, scan_pattern hfits endsTime_nil]; rfl
  have hearlier : ∀ q ∈ form.earlier,
      Pattern.scan (q ++ [.offset]) {} (form.chars m ++ []) = none := fun q hq =>
    scan_append_eq_none (scan_earlier hq hfits endsTime_nil {}) _
  have hbasic : form ≠ .basic →
      Pattern.scan (basicSecond ++ [.offset]) {} (form.chars m ++ []) = none := fun h =>
    scan_append_eq_none (scan_basicSecond_eq_none h {}) _
  simp only [offsetPatterns, List.mem_cons, List.not_mem_nil, or_false] at hp
  -- its own pattern misses the offset at the end, a longer form misses it before the seconds, and
  -- all others have failed by then
  cases form with
  | seconds digits =>
    rcases hp with rfl | rfl | rfl
    · exact hown
    · exact scan_extendedMinute_offset digits {}
    · exact hbasic (by simp)
  | minutes =>
    rcases hp with rfl | rfl | rfl
    · exact hearlier _ (by simp [Form.earlier])
    · exact hown
    · exact hbasic (by simp)
  | basic =>
    rcases hp with rfl | rfl | rfl
    · exact hearlier _ (by simp [Form.earlier])
    · exact hearlier _ (by simp [Form.earlier])
    · exact hown

theorem parseInstant_chars_eq_none (hfits : form.Fits m) : parseInstant (form.chars m) = none := by
  refine List.findSome?_eq_none_iff.mpr fun p hp => ?_
  rw [Pattern.instant?, read_eq_none (scan_offsetPatterns hp hfits), Option.bind_none]

/-! ### The letter at the end -/

theorem withoutZulu?_concat (cs : List Char) (c : Char) :
    withoutZulu? (cs ++ [c]) = if c = 'Z' ∨ c = 'z' then some cs else none := by
  rw [withoutZulu?, List.getLast?_concat, List.dropLast_concat]

/-- A text that ends in digits has no letter to take off. -/
theorem withoutZulu?_of_suffix {w n : Nat} (hw : w ≠ 0) (h : fixed w n <:+ cs) :
    withoutZulu? cs = none := by
  obtain ⟨before, rfl⟩ := h
  obtain ⟨w, rfl⟩ := Nat.exists_eq_succ_of_ne_zero hw
  have hdigit := isDigit_digitChar (Nat.mod_lt n (by decide : 0 < 10))
  rw [fixed, ← List.append_assoc, withoutZulu?_concat, if_neg]
  rintro (hc | hc) <;> rw [hc] at hdigit <;> exact absurd hdigit (by decide)

/-- Digits after a separator end a text. -/
theorem suffix_separated (before ds : List Char) (c : Char) : ds <:+ before ++ c :: ds :=
  (List.suffix_cons c ds).trans (List.suffix_append before _)

theorem withoutZulu?_chars (form : Form) (m : Moment) : withoutZulu? (form.chars m) = none := by
  cases form with
  | seconds digits =>
    rw [Form.chars, fractionText]
    split
    next =>
      rw [List.append_nil]
      exact withoutZulu?_of_suffix (w := 2) (by decide) (suffix_separated ..)
    next h => exact withoutZulu?_of_suffix h (suffix_separated ..)
  | minutes =>
    exact withoutZulu?_of_suffix (w := 2) (by decide)
      ((suffix_separated ..).trans (suffix_separated ..))
  | basic => exact withoutZulu?_of_suffix (w := 2) (by decide) (List.suffix_append ..)

theorem withoutZulu?_zone (cs : List Char) (z : Zone) : withoutZulu? (cs ++ z.chars) = none :=
  withoutZulu?_of_suffix (w := 2) (by decide)
    ((suffix_separated ..).trans (List.suffix_append cs z.chars))

/-! ### Spelled timestamps -/

/-- What makes a timestamp an instant. -/
inductive Suffix where
  /-- The letter for UTC, of either case. -/
  | zulu (small : Bool)
  /-- An offset. -/
  | offset (z : Zone)
  deriving DecidableEq, Repr

namespace Suffix

/-- The text of a suffix. -/
def chars : Suffix → List Char
  | zulu small => [if small then 'z' else 'Z']
  | offset z => z.chars

/-- The seconds that the moment written is ahead of UTC. -/
def seconds : Suffix → Int
  | zulu _ => 0
  | offset z => z.offset.seconds

end Suffix

theorem parseLocal_chars (hclock : m.time.IsClock) (hfits : form.Fits m) (zone : Offset) :
    parseLocal zone (String.ofList (form.chars m)) = .moment m := by
  simp only [parseLocal, String.toList_ofList, withoutZulu?_chars, parseInstant_chars_eq_none hfits,
    parseFloating_chars hclock hfits]
  rfl

/-- A form with a suffix is read as an instant. -/
theorem parseLocal_suffix {suffix : Suffix} {u : Moment} (hclock : m.time.IsClock)
    (hfits : form.Fits m) (hu : m.IsAfter (-suffix.seconds) u) (zone : Offset) :
    parseLocal zone (String.ofList (form.chars m ++ suffix.chars)) = .ofInstant zone u := by
  cases suffix with
  | zulu small =>
    obtain rfl : m = u := Moment.eq_of_total (hu.1.trans (Int.add_zero _)).symm hu.2.symm
    have hletter : withoutZulu? (form.chars m ++ (Suffix.zulu small).chars) =
        some (form.chars m) := by
      rw [Suffix.chars, withoutZulu?_concat, if_pos]
      cases small <;> decide
    simp only [parseLocal, String.toList_ofList, hletter, parseFloating_chars hclock hfits]
  | offset z =>
    simp only [parseLocal, String.toList_ofList, Suffix.chars, withoutZulu?_zone,
      parseInstant_chars hclock hfits hu]

/-! ### Spelled dates -/

theorem parseDate_isoChars (d : Date) : parseDate d.iso = some d := by
  have hscan := scan_extendedDate {} d []
  rw [List.append_nil] at hscan
  have hdate : extendedDate.date? d.iso.toList = some d := by
    rw [Pattern.date?, Pattern.read, Date.iso, String.toList_ofList, hscan]
    exact d.ofCivil?_civil
  rw [parseDate, datePatterns, List.findSome?_cons, hdate]

theorem parseDate_basicChars {d : Date} (h : 0 ≤ d.year ∧ d.year ≤ 9999) :
    parseDate (String.ofList (basicChars d)) = some d := by
  have hextended := scan_extendedDate_basicChars {} h []
  have hscan := scan_basicDate {} h []
  rw [List.append_nil] at hextended hscan
  have hdate : basicDate.date? (basicChars d) = some d := by
    rw [Pattern.date?, Pattern.read, hscan]
    exact d.ofCivil?_civil
  have hnone : extendedDate.date? (basicChars d) = none := by
    rw [Pattern.date?, read_eq_none hextended, Option.bind_none]
  simp only [parseDate, datePatterns, String.toList_ofList, List.findSome?_cons, hnone, hdate]

/-! ### All spellings -/

/-- Every spelling of a moment is read as the moment it names: as it stands without a suffix, and
with one as the local moment of the instant. So two spellings of one instant are read alike. Dates
are read back from both their forms. -/
theorem spellings_read_back :
    (∀ (m : Moment) (form : Form), m.time.IsClock → form.Fits m →
      (∀ zone, parseLocal zone (String.ofList (form.chars m)) = .moment m) ∧
      ∀ (zone : Offset) (suffix : Suffix) (u r : Moment), m.IsAfter (-suffix.seconds) u →
        m.IsAfter (zone.seconds - suffix.seconds) r →
        parseLocal zone (String.ofList (form.chars m ++ suffix.chars)) = .moment r) ∧
    (∀ (m m' u : Moment) (form form' : Form) (suffix suffix' : Suffix),
      m.time.IsClock → m'.time.IsClock → form.Fits m → form'.Fits m' →
      m.IsAfter (-suffix.seconds) u → m'.IsAfter (-suffix'.seconds) u →
      ∀ zone, parseLocal zone (String.ofList (form.chars m ++ suffix.chars)) =
        parseLocal zone (String.ofList (form'.chars m' ++ suffix'.chars))) ∧
    (∀ o : Offset, o.seconds % 60 = 0 → ∃ z : Zone, (Suffix.offset z).seconds = o.seconds) ∧
    (∀ d : Date, parseDate d.iso = some d) ∧
    ∀ d : Date, 0 ≤ d.year ∧ d.year ≤ 9999 → parseDate (String.ofList (basicChars d)) = some d := by
  refine ⟨fun m form hclock hfits => ⟨parseLocal_chars hclock hfits, ?_⟩, ?_, ?_,
    parseDate_isoChars, fun d => parseDate_basicChars⟩
  · intro zone suffix u r hu hr
    have hshift : u.shift? zone.seconds = some r := by
      rw [Int.sub_eq_add_neg, Int.add_comm] at hr
      exact hu.shift? hr
    rw [parseLocal_suffix hclock hfits hu, Reading.ofInstant, hshift]
  · intro m m' u form form' suffix suffix' hclock hclock' hfits hfits' hu hu' zone
    rw [parseLocal_suffix hclock hfits hu, parseLocal_suffix hclock' hfits' hu']
  · intro o ho
    obtain ⟨z, rfl⟩ := Zone.exists_offset_eq ho
    exact ⟨z, rfl⟩

end Timestamp

namespace Sample

/-- A day by its civil date. -/
def day (year : Int) (month number : Nat)
    (h : (Date.ofCivil? ⟨year, month, number⟩).isSome := by decide) : Date :=
  (Date.ofCivil? ⟨year, month, number⟩).get h

/-- Half a second into a leap second. -/
def leap (d : Date) (hour minute : Nat)
    (h : (TimeOfDay.ofClock? hour minute 59 1500000000).isSome := by decide) : Moment :=
  ⟨d, (TimeOfDay.ofClock? hour minute 59 1500000000).get h⟩

/-- Eight hours behind UTC. -/
def pacific : Offset := (Offset.ofSeconds? (-28800)).get (by decide)

end Sample

/-- The leap second at the end of 2016, on a clock without a zone, in India and in UTC. -/
theorem Timestamp.spellings_read_back_sample :
    parseLocal Sample.pacific "2016-12-31T23:59:60.500" =
      .moment (Sample.leap (Sample.day 2016 12 31) 23 59) ∧
    parseLocal Sample.pacific "2017-01-01T05:29:60.500+05:30" =
      .moment (Sample.leap (Sample.day 2016 12 31) 15 59) ∧
    parseLocal Sample.pacific "2017-01-01T05:29:60.500+05:30" =
      parseLocal Sample.pacific "2016-12-31T23:59:60.5Z" ∧
    (∃ z : Zone, (Suffix.offset z).seconds = Sample.pacific.seconds) ∧
    parseDate "20161231" = some (Sample.day 2016 12 31) := by
  obtain ⟨hmoments, hsame, hzones, -, hbasic⟩ := spellings_read_back
  have hlocal := (hmoments (Sample.leap (Sample.day 2016 12 31) 23 59) (.seconds 3)
    (fun _ => by decide) ⟨by decide, by decide⟩).1 Sample.pacific
  have hindia := (hmoments (Sample.leap (Sample.day 2017 1 1) 5 29) (.seconds 3)
    (fun _ => by decide) ⟨by decide, by decide⟩).2 Sample.pacific (.offset ⟨false, 5, 30⟩)
    (Sample.leap (Sample.day 2016 12 31) 23 59) (Sample.leap (Sample.day 2016 12 31) 15 59)
    (by decide) (by decide)
  have hboth := hsame (Sample.leap (Sample.day 2017 1 1) 5 29)
    (Sample.leap (Sample.day 2016 12 31) 23 59) (Sample.leap (Sample.day 2016 12 31) 23 59)
    (.seconds 3) (.seconds 1) (.offset ⟨false, 5, 30⟩) (.zulu false)
    (fun _ => by decide) (fun _ => by decide) ⟨by decide, by decide⟩ ⟨by decide, by decide⟩
    (by decide) (by decide) Sample.pacific
  have hdate := hbasic (Sample.day 2016 12 31) (by decide)
  have hlocalText : (Form.seconds 3).chars (Sample.leap (Sample.day 2016 12 31) 23 59) =
      "2016-12-31T23:59:60.500".toList := by decide
  have hindiaText : (Form.seconds 3).chars (Sample.leap (Sample.day 2017 1 1) 5 29) ++
      (Suffix.offset ⟨false, 5, 30⟩).chars = "2017-01-01T05:29:60.500+05:30".toList := by decide
  have hutcText : (Form.seconds 1).chars (Sample.leap (Sample.day 2016 12 31) 23 59) ++
      (Suffix.zulu false).chars = "2016-12-31T23:59:60.5Z".toList := by decide
  have hdateText : basicChars (Sample.day 2016 12 31) = "20161231".toList := by decide
  rw [hlocalText, String.ofList_toList] at hlocal
  rw [hindiaText, String.ofList_toList] at hindia hboth
  rw [hutcText, String.ofList_toList] at hboth
  rw [hdateText, String.ofList_toList] at hdate
  exact ⟨hlocal, hindia, hboth, hzones _ (by decide), hdate⟩

end WallCalendar
