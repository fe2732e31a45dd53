import Mathlib.Data.List.Forall2
import WallCalendar.Command.Settings
import WallCalendar.Proofs.Timestamp.Spelling

/-!
The texts that are read as offsets.

A setting, without the blanks around it, names UTC or begins with a sign, two digits of hours and
two digits of minutes. In full, as it is meant to be written, it has at most a colon between hours
and minutes and nothing after them. More than that is read: the sign may be the typographic minus,
any run of colons and blanks may stand between hours and minutes, and whatever follows the minutes
is passed over. Such a text is read as the offset that its hours and minutes name.
-/

namespace WallCalendar

open WallCalendar.Text

/-! ### Words in letters of either case -/

namespace Text

/-- The text is the word, each letter of it small or capital. -/
def SpellsWord (word cs : List Char) : Prop :=
  List.Forall₂ (fun w c => c = w ∨ c = w.toUpper) word cs

theorem toNat_toLower (c : Char) :
    c.toLower.toNat = if 65 ≤ c.toNat ∧ c.toNat ≤ 90 then c.toNat + 32 else c.toNat := by
  delta Char.toLower
  simp only [ge_iff_le, UInt32.le_iff_toNat_le]
  split <;> grind [Char.toNat, UInt32.toNat_add]

theorem toNat_toUpper {w : Char} (h : w.isLower = true) :
    (97 ≤ w.toNat ∧ w.toNat ≤ 122) ∧ w.toUpper.toNat = w.toNat - 32 := by
  have hcode : w.val ≥ 97 ∧ w.val ≤ 122 := by
    delta Char.isLower at h
    simpa using h
  delta Char.toUpper
  simp only [ge_iff_le, UInt32.le_iff_toNat_le] at hcode ⊢
  grind [Char.toNat, UInt32.toNat_add]

/-- Only a letter itself, small or capital, becomes that letter when it is made small. -/
theorem toLower_eq_iff {c w : Char} (h : w.isLower = true) :
    c.toLower = w ↔ c = w ∨ c = w.toUpper := by
  obtain ⟨hw, hupper⟩ := toNat_toUpper h
  rw [← Char.toNat_inj, ← Char.toNat_inj, ← Char.toNat_inj, toNat_toLower, hupper]
  split <;> omega

theorem map_toLower_eq_iff {word : List Char} (h : ∀ w ∈ word, w.isLower = true) {cs : List Char} :
    cs.map Char.toLower = word ↔ SpellsWord word cs := by
  induction word generalizing cs with
  | nil => simp [SpellsWord]
  | cons w word ih =>
    obtain ⟨hw, hword⟩ := List.forall_mem_cons.mp h
    cases cs with
    | nil => simp [SpellsWord]
    | cons c cs =>
      rw [List.map_cons, List.cons.injEq, toLower_eq_iff hw, ih hword, SpellsWord, SpellsWord,
        List.forall₂_cons]

end Text

namespace Offset

variable {cs rest : List Char} {s : String} {o : Offset}

/-- The text is `z` or `utc`, in letters of either case. -/
def SpellsUtc (cs : List Char) : Prop := SpellsWord ['z'] cs ∨ SpellsWord ['u', 't', 'c'] cs

theorem namesUtc_iff : namesUtc cs = true ↔ SpellsUtc cs := by
  have hz : ∀ w ∈ ['z'], w.isLower = true := by simp
  have hutc : ∀ w ∈ ['u', 't', 'c'], w.isLower = true := by simp
  rw [SpellsUtc, ← map_toLower_eq_iff hz, ← map_toLower_eq_iff hutc, namesUtc, Bool.or_eq_true,
    beq_iff_eq, beq_iff_eq]

/-! ### Offsets as they are written -/

/-- The characters that are read as a sign. -/
inductive Mark where
  | plus
  | hyphen
  | minus
  deriving DecidableEq

namespace Mark

/-- The character. -/
def char : Mark → Char
  | plus => '+'
  | hyphen => '-'
  | minus => '\u2212'

/-- Whether the offset lies behind UTC. -/
def isNegative : Mark → Bool
  | plus => false
  | _ => true

/-- The sign as a factor. -/
def factor (m : Mark) : Int := if m.isNegative then -1 else 1

end Mark

theorem scanSign_eq_some_iff {n : Int} :
    scanSign cs = some (n, rest) ↔ ∃ m : Mark, cs = m.char :: rest ∧ n = m.factor := by
  constructor
  · intro h
    unfold scanSign at h
    split at h <;> cases h
    · exact ⟨.plus, rfl, rfl⟩
    · exact ⟨.hyphen, rfl, rfl⟩
    · exact ⟨.minus, rfl, rfl⟩
  · rintro ⟨m, rfl, rfl⟩
    cases m <;> rfl

/-- Two digits are read as the number they write. -/
theorem scanPair_eq_some_iff {n : Nat} :
    scanPair cs = some (n, rest) ↔ n < 100 ∧ cs = fixed 2 n ++ rest := by
  constructor
  · intro h
    unfold scanPair at h
    split at h
    next c d after =>
      split at h
      next hboth =>
        cases h
        have hdigits : ∀ x ∈ [c, d], x.isDigit = true := by simpa using hboth
        have hvalue : digitsValue [c, d] = 10 * digitValue c + digitValue d := by
          simp [digitsValue]
        rw [← hvalue]
        refine ⟨digitsValue_lt hdigits, ?_⟩
        rw [show fixed 2 (digitsValue [c, d]) = [c, d] from fixed_digitsValue hdigits]
        rfl
      next => cases h
    next => cases h
  · rintro ⟨hn, rfl⟩
    exact Timestamp.scanPair_fixed hn rest

/-- Blanks and colons are skipped up to the two digits. -/
theorem dropWhile_eq_iff {n : Nat} : cs.dropWhile isSeparator = fixed 2 n ++ rest ↔
    ∃ gap, (∀ c ∈ gap, isSeparator c = true) ∧ cs = gap ++ (fixed 2 n ++ rest) := by
  constructor
  · intro h
    refine ⟨cs.takeWhile isSeparator, fun _ => List.mem_takeWhile_imp, ?_⟩
    rw [← h, List.takeWhile_append_dropWhile]
  · rintro ⟨gap, hgap, rfl⟩
    exact Timestamp.dropWhile_isSeparator hgap n rest

/-- An offset as it is read: a sign, hours, what parts them from the minutes, minutes, and what is
passed over after them. -/
structure Spelling where
  mark : Mark
  hours : Fin 24
  gap : List Char
  minutes : Fin 60
  rest : List Char
  isSeparator_of_mem : ∀ c ∈ gap, isSeparator c = true

namespace Spelling

/-- The characters. -/
def chars (t : Spelling) : List Char :=
  t.mark.char :: (fixed 2 t.hours ++ (t.gap ++ (fixed 2 t.minutes ++ t.rest)))

/-- The sign, the hours and the minutes. -/
def zone (t : Spelling) : Timestamp.Zone := ⟨t.mark.isNegative, t.hours, t.minutes⟩

/-- Written in full: the sign is a plus or a hyphen, a colon or nothing stands before the minutes,
and nothing follows them. -/
def IsFull (t : Spelling) : Prop :=
  t.mark ≠ .minus ∧ (t.gap = [] ∨ t.gap = [':']) ∧ t.rest = []

end Spelling

theorem eq_of_seconds {a b : Offset} (h : a.seconds = b.seconds) : a = b := by
  cases a; cases b; cases h; rfl

theorem seconds_of_ofSeconds? {n : Int} (h : ofSeconds? n = some o) : o.seconds = n := by
  unfold ofSeconds? at h
  split at h <;> cases h
  rfl

/-- Hours below 24 are all that an offset has room for. -/
theorem hours_lt {m : Mark} {hours minutes : Nat}
    (h : o.seconds = m.factor * (3600 * hours + 60 * minutes)) : hours < 24 := by
  have hlower := o.lower
  have hupper := o.upper
  unfold Mark.factor at h
  split at h <;> omega

/-- A sign, hours below 24 and minutes below 60 are read, whatever parts them and whatever follows
them. -/
theorem scan_eq_some_iff : scan cs = some (o, rest) ↔
    ∃ t : Spelling, cs = t.chars ∧ o = t.zone.offset ∧ rest = t.rest := by
  constructor
  · intro h
    simp only [scan, Option.bind_eq_bind, Option.bind_eq_some_iff, Prod.exists] at h
    obtain ⟨sign, afterSign, hsign, hours, afterHours, hhours, minutes, after, hminutes, h⟩ := h
    split at h
    next hlt =>
      obtain ⟨m, rfl, rfl⟩ := scanSign_eq_some_iff.mp hsign
      obtain ⟨-, rfl⟩ := scanPair_eq_some_iff.mp hhours
      obtain ⟨-, hafter⟩ := scanPair_eq_some_iff.mp hminutes
      obtain ⟨gap, hgap, rfl⟩ := dropWhile_eq_iff.mp hafter
      obtain ⟨o', ho, heq⟩ := Option.bind_eq_some_iff.mp h
      cases heq
      have hseconds := seconds_of_ofSeconds? ho
      exact ⟨⟨m, ⟨hours, hours_lt hseconds⟩, gap, ⟨minutes, hlt⟩, rest, hgap⟩, rfl,
        eq_of_seconds hseconds, rfl⟩
    next => cases h
  · rintro ⟨t, rfl, rfl, rfl⟩
    exact Timestamp.scan_of_scanSign (scanSign_eq_some_iff.mpr ⟨t.mark, rfl, rfl⟩)
      t.isSeparator_of_mem (by omega) t.minutes.isLt rfl

/-- A sign is no letter. -/
theorem not_spellsUtc_chars (t : Spelling) : ¬ SpellsUtc t.chars := by
  have hletter : ∀ m : Mark, ∀ w ∈ ['z', 'u'], ¬ (m.char = w ∨ m.char = w.toUpper) := by
    intro m
    cases m <;> simp [Mark.char]
  rintro (h | h)
  · exact hletter t.mark 'z' (by simp) (List.forall₂_cons.mp h).1
  · exact hletter t.mark 'u' (by simp) (List.forall₂_cons.mp h).1

/-- A setting is read from the front of what is left without the blanks around it. -/
theorem parse_eq_some_iff : parse s = some o ↔
    SpellsUtc (trim s).toList ∧ o = utc ∨
      ∃ t : Spelling, (trim s).toList = t.chars ∧ o = t.zone.offset := by
  have hparse : parse s = if namesUtc (trim s).toList = true then some utc
      else (scan (trim s).toList).map Prod.fst := by
    rw [trim, String.toList_ofList]; rfl
  have hscan : (scan (trim s).toList).map Prod.fst = some o ↔
      ∃ t : Spelling, (trim s).toList = t.chars ∧ o = t.zone.offset := by
    simp only [Option.map_eq_some_iff, Prod.exists, scan_eq_some_iff]
    constructor
    · rintro ⟨_, _, ⟨t, hcs, rfl, -⟩, rfl⟩
      exact ⟨t, hcs, rfl⟩
    · rintro ⟨t, hcs, rfl⟩
      exact ⟨_, _, ⟨t, hcs, rfl, rfl⟩, rfl⟩
  rw [hparse]
  by_cases hutc : namesUtc (trim s).toList = true
  · rw [if_pos hutc, Option.some_inj]
    have hspells := namesUtc_iff.mp hutc
    constructor
    · rintro rfl
      exact .inl ⟨hspells, rfl⟩
    · rintro (⟨-, rfl⟩ | ⟨t, hcs, -⟩)
      · rfl
      · rw [hcs] at hspells
        exact absurd hspells (not_spellsUtc_chars t)
  · rw [if_neg hutc, hscan, ← namesUtc_iff, or_iff_right fun h => hutc h.1]

/-! ### Offsets written in full -/

/-- Sign, hours and minutes run together. -/
def basicChars (z : Timestamp.Zone) : List Char :=
  (if z.negative then '-' else '+') :: (fixed 2 z.hours ++ fixed 2 z.minutes)

/-- The text is `Z`, `UTC`, `±HH:MM` or `±HHMM`, for the offset it names. -/
inductive WrittenInFull : List Char → Offset → Prop where
  | utc {cs : List Char} (h : SpellsUtc cs) : WrittenInFull cs utc
  | extended (z : Timestamp.Zone) : WrittenInFull z.chars z.offset
  | basic (z : Timestamp.Zone) : WrittenInFull (basicChars z) z.offset

theorem length_of_writtenInFull (h : WrittenInFull cs o) : cs.length ≤ 6 := by
  cases h with
  | utc h =>
    rcases h with h | h
    · rw [← h.length_eq]; decide
    · rw [← h.length_eq]; decide
  | extended z => simp [Timestamp.Zone.chars]
  | basic z => simp [basicChars]

namespace Spelling

variable {t : Spelling} {z : Timestamp.Zone}

theorem mark_ne_minus (h : t.mark.char = if z.negative then '-' else '+') : t.mark ≠ .minus := by
  intro hminus
  rw [hminus] at h
  cases hz : z.negative <;> simp [hz, Mark.char] at h

/-- Two digits leave no room for anything beside the minutes. -/
theorem eq_nil_of_append_eq {n : Nat} {gap : List Char}
    (h : gap ++ (fixed 2 t.minutes ++ t.rest) = fixed 2 n) : gap = [] ∧ t.rest = [] := by
  have hlength := congrArg List.length h
  simp only [List.length_append, length_fixed] at hlength
  exact ⟨List.length_eq_zero_iff.mp (by omega), List.length_eq_zero_iff.mp (by omega)⟩

theorem isFull_of_basic (h : t.chars = basicChars z) : t.IsFull := by
  obtain ⟨hmark, htail⟩ := List.cons.inj h
  obtain ⟨-, hafter⟩ := List.append_inj htail (by simp)
  obtain ⟨hgap, hrest⟩ := eq_nil_of_append_eq hafter
  exact ⟨mark_ne_minus hmark, .inl hgap, hrest⟩

theorem isFull_of_extended (h : t.chars = z.chars) : t.IsFull := by
  obtain ⟨hmark, htail⟩ := List.cons.inj h
  obtain ⟨-, hafter⟩ := List.append_inj htail (by simp)
  cases hgap : t.gap with
  | nil =>
    -- the minutes would begin with the colon
    rw [hgap, List.nil_append] at hafter
    have hcolon : ':' ∈ fixed 2 t.minutes := by
      have hhead := congrArg List.head? hafter
      rw [List.head?_append_of_ne_nil _ (fixed_ne_nil (by decide) _)] at hhead
      exact List.mem_of_mem_head? hhead
    exact absurd (isDigit_of_mem_fixed _ _ _ hcolon) (by decide)
  | cons c gap =>
    rw [hgap, List.cons_append] at hafter
    obtain ⟨rfl, hminutes⟩ := List.cons.inj hafter
    obtain ⟨rfl, hrest⟩ := eq_nil_of_append_eq hminutes
    exact ⟨mark_ne_minus hmark, .inr hgap, hrest⟩

/-- Hours and minutes are spelled with the sign of the zone. -/
theorem exists_zone_eq (z : Timestamp.Zone) (gap : List Char)
    (hgap : ∀ c ∈ gap, isSeparator c = true) :
    ∃ t : Spelling, t.zone = z ∧ t.chars =
      (if z.negative then '-' else '+') :: (fixed 2 z.hours ++ (gap ++ fixed 2 z.minutes)) := by
  obtain ⟨negative, hours, minutes⟩ := z
  cases negative with
  | false =>
    refine ⟨⟨.plus, hours, gap, minutes, [], hgap⟩, rfl, ?_⟩
    rw [chars, List.append_nil]
    rfl
  | true =>
    refine ⟨⟨.hyphen, hours, gap, minutes, [], hgap⟩, rfl, ?_⟩
    rw [chars, List.append_nil]
    rfl

/-- Of what is read beside the names of UTC, just what is full is written as it is meant to be. -/
theorem writtenInFull_iff : WrittenInFull t.chars t.zone.offset ↔ t.IsFull := by
  constructor
  · intro h
    generalize hcs : t.chars = cs at h
    generalize t.zone.offset = o at h
    cases h with
    | utc h => exact absurd (hcs ▸ h) (not_spellsUtc_chars t)
    | extended z => exact isFull_of_extended hcs
    | basic z => exact isFull_of_basic hcs
  · rintro ⟨hmark, hgap, hrest⟩
    have hsign : t.mark.char = if t.zone.negative then '-' else '+' := by
      unfold zone
      cases hm : t.mark with
      | plus => rfl
      | hyphen => rfl
      | minus => exact absurd hm hmark
    rcases hgap with hgap | hgap
    · have hchars : t.chars = basicChars t.zone := by
        simp only [chars, hgap, hrest, hsign, List.nil_append, List.append_nil]
        rfl
      rw [hchars]
      exact .basic _
    · have hchars : t.chars = t.zone.chars := by
        simp only [chars, hgap, hrest, hsign, List.append_nil]
        rfl
      rw [hchars]
      exact .extended _

end Spelling

/-- A setting in full is read as the offset it names. -/
theorem parse_of_writtenInFull (h : WrittenInFull (trim s).toList o) : parse s = some o := by
  rw [parse_eq_some_iff]
  generalize (trim s).toList = cs at h
  cases h with
  | utc h => exact .inl ⟨h, rfl⟩
  | extended z =>
    obtain ⟨t, hzone, hchars⟩ := Spelling.exists_zone_eq z [':'] (by simp [isSeparator])
    exact .inr ⟨t, hchars.symm, by rw [hzone]⟩
  | basic z =>
    obtain ⟨t, hzone, hchars⟩ := Spelling.exists_zone_eq z [] (by simp)
    exact .inr ⟨t, hchars.symm, by rw [hzone]⟩

theorem ofSetting_eq_ok_iff : ofSetting s = .ok o ↔ parse s = some o := by
  unfold ofSetting
  cases parse s <;> simp

theorem ofSetting_eq_error_iff {e : SettingsError} :
    ofSetting s = .error e ↔ e = .invalidOffset s ∧ parse s = none := by
  unfold ofSetting
  cases parse s <;> simp [eq_comm]

/-- A setting is read just when, without the blanks around it, it names UTC or spells an offset, and
any other is refused with its text as it stands. A setting in full is always read, but it is not all
that is read: a spelling is in full just when its sign is no typographic minus, at most a colon
stands before the minutes and nothing after them. -/
theorem ofSetting_texts (s : String) (o : Offset) :
    (ofSetting s = .ok o ↔ SpellsUtc (trim s).toList ∧ o = utc ∨
      ∃ t : Spelling, (trim s).toList = t.chars ∧ o = t.zone.offset) ∧
    (WrittenInFull (trim s).toList o → ofSetting s = .ok o) ∧
    (∀ t : Spelling, (trim s).toList = t.chars →
      (WrittenInFull (trim s).toList t.zone.offset ↔ t.IsFull)) ∧
    ∀ e, ofSetting s = .error e ↔ e = .invalidOffset s ∧ ¬ SpellsUtc (trim s).toList ∧
      ∀ t : Spelling, (trim s).toList ≠ t.chars := by
  refine ⟨ofSetting_eq_ok_iff.trans parse_eq_some_iff,
    fun h => ofSetting_eq_ok_iff.mpr (parse_of_writtenInFull h), fun t ht => ?_, fun e => ?_⟩
  · rw [ht]
    exact Spelling.writtenInFull_iff
  · rw [ofSetting_eq_error_iff, Option.eq_none_iff_forall_ne_some]
    refine and_congr_right fun _ => ?_
    simp only [ne_eq, parse_eq_some_iff, not_or, not_and, not_exists]
    constructor
    · intro h
      exact ⟨fun hutc => (h utc).1 hutc rfl, fun t ht => (h t.zone.offset).2 t ht rfl⟩
    · rintro ⟨hutc, ht⟩ o
      exact ⟨fun h => absurd h hutc, fun t h => absurd h (ht t)⟩

end Offset

namespace Sample

/-- Two hours ahead of UTC. -/
def twoAhead : Timestamp.Zone := ⟨false, 2, 0⟩

/-- Two hours ahead, and a word after that. -/
def trailing : Offset.Spelling where
  mark := .plus
  hours := 2
  gap := [':']
  minutes := 0
  rest := "garbage".toList
  isSeparator_of_mem := by simp [Offset.isSeparator]

/-- Three and a half hours behind UTC. -/
def halfPast : Timestamp.Zone := ⟨true, 3, 30⟩

end Sample

/-- What follows the minutes is passed over, though no setting in full is that long. -/
theorem Offset.ofSetting_trailing :
    ofSetting "+02:00garbage" = .ok Sample.twoAhead.offset ∧
    ¬ ∃ o, WrittenInFull (trim "+02:00garbage").toList o := by
  refine ⟨by decide, ?_⟩
  rintro ⟨o, h⟩
  exact absurd (length_of_writtenInFull h) (by decide)

/-- A setting with a word after the minutes is read and not in full, one in full is read between
blanks, and one without a sign is refused. -/
theorem Offset.ofSetting_texts_sample :
    ofSetting "+02:00garbage" = .ok Sample.twoAhead.offset ∧
    ¬ WrittenInFull (trim "+02:00garbage").toList Sample.twoAhead.offset ∧
    ofSetting " -0330\n" = .ok Sample.halfPast.offset ∧
    Sample.halfPast.offset.seconds = -12600 ∧
    ofSetting "02:00" = .error (.invalidOffset "02:00") ∧
    ∀ t : Spelling, (trim "02:00").toList ≠ t.chars := by
  obtain ⟨hread, -, hfull, -⟩ := ofSetting_texts "+02:00garbage" Sample.twoAhead.offset
  obtain ⟨-, hback, -, -⟩ := ofSetting_texts " -0330\n" Sample.halfPast.offset
  obtain ⟨-, -, -, hrefused⟩ := ofSetting_texts "02:00" utc
  have hchars : (trim "+02:00garbage").toList = Sample.trailing.chars := by decide
  have hbasic : (trim " -0330\n").toList = basicChars Sample.halfPast := by decide
  have herror : ofSetting "02:00" = .error (.invalidOffset "02:00") := by decide
  refine ⟨hread.mpr (.inr ⟨_, hchars, rfl⟩), ?_, hback (hbasic ▸ .basic _), rfl, herror,
    ((hrefused _).mp herror).2.2⟩
  intro h
  have hrest : Sample.trailing.rest = [] := ((hfull _ hchars).mp h).2.2
  exact absurd hrest (by decide)

end WallCalendar
