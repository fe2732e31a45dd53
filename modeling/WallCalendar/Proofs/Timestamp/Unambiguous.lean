import WallCalendar.Proofs.Timestamp.Letters
import WallCalendar.Proofs.Timestamp.Spelling

/-!
No text is written in two patterns.

Two patterns agree up to some item. There one of them is at its end while the other wants more text,
or one wants a character that the other cannot begin with. So no text is used up by both, and it
does not matter which of them is tried first. The letters of a text are just those of its pattern:
a timestamp holds a `T`, a date holds none, and neither ends in the letter for UTC.
-/

namespace WallCalendar

open WallCalendar.Text

namespace Timestamp

variable {p q : Pattern} {cs rest : List Char} {c : Char}

/-! ### Where two patterns part -/

/-- Whether an item can read a text that begins with a character. -/
def Item.starts : Item → Char → Bool
  | literal c, d => d == c
  | year, d => isBlank d || d.isDigit || d == '+' || d == '-'
  | fraction, _ => true
  | offset, d => isBlank d || d == '+' || d == '-' || d == '\u2212'
  | _, d => isBlank d || d.isDigit

theorem Item.starts_literal (c d : Char) : (literal c).starts d = (d == c) := rfl

theorem Item.starts_year (c : Char) :
    year.starts c = (isBlank c || c.isDigit || c == '+' || c == '-') := rfl

theorem Item.starts_offset (c : Char) :
    offset.starts c = (isBlank c || c == '+' || c == '-' || c == '\u2212') := rfl

/-- Whether an item can read nothing at all. -/
def Item.isOptional : Item → Bool
  | fraction => true
  | _ => false

/-- Whether one of two items is a character that the other cannot begin with. -/
def Item.clashes : Item → Item → Bool
  | literal c, item => !item.starts c
  | item, literal c => !item.starts c
  | _, _ => false

/-- Whether the first items where two patterns differ clash, or one pattern ends where the other
wants more text. -/
def Pattern.clashes : Pattern → Pattern → Bool
  | [], [] => false
  | [], item :: _ => !item.isOptional
  | item :: _, [] => !item.isOptional
  | a :: p, b :: q => if a = b then Pattern.clashes p q else a.clashes b

theorem valueOfDigits_spanDigits_cons (n : Nat) (h : c.isDigit = false) (cs : List Char) :
    valueOfDigits (spanDigits n (c :: cs)) = none := by
  cases n with
  | zero => rfl
  | succ n => rw [spanDigits, if_neg (by simp [h])]; rfl

theorem scanNumber_cons_eq_none (hblank : isBlank c = false) (hdigit : c.isDigit = false)
    (cs : List Char) : scanNumber (c :: cs) = none := by
  rw [scanNumber, skipBlanks_cons_of_not hblank, valueOfDigits_spanDigits_cons _ hdigit]

theorem scanYear_cons_eq_none (h : Item.year.starts c = false) (cs : List Char) :
    scanYear (c :: cs) = none := by
  simp only [Item.starts_year, Bool.or_eq_false_iff, beq_eq_false_iff_ne] at h
  obtain ⟨⟨⟨hblank, hdigit⟩, hplus⟩, hminus⟩ := h
  rw [scanYear, skipBlanks_cons_of_not hblank]
  split
  next heq => exact absurd (List.cons.inj heq).1 hminus
  next heq => exact absurd (List.cons.inj heq).1 hplus
  next => rw [valueOfDigits_spanDigits_cons _ hdigit]; rfl

theorem scanOffset_cons_eq_none (h : Item.offset.starts c = false) (cs : List Char) :
    Offset.scan (skipBlanks (c :: cs)) = none := by
  simp only [Item.starts_offset, Bool.or_eq_false_iff, beq_eq_false_iff_ne] at h
  obtain ⟨⟨⟨hblank, hplus⟩, hminus⟩, hsign⟩ := h
  have hscan : Offset.scanSign (c :: cs) = none := by
    unfold Offset.scanSign
    split
    next heq => exact absurd (List.cons.inj heq).1 hplus
    next heq => exact absurd (List.cons.inj heq).1 hminus
    next heq => exact absurd (List.cons.inj heq).1 hsign
    next => rfl
  rw [skipBlanks_cons_of_not hblank, Offset.scan, hscan]
  rfl

/-- An item reads no text that begins with a character it cannot begin with. -/
theorem scan_eq_none_of_not_starts {item : Item} (h : item.starts c = false) (f : Fields)
    (cs : List Char) : item.scan f (c :: cs) = none := by
  cases item with
  | literal d => exact scan_literal_eq_none (by simpa [Item.starts_literal] using h) f
  | year => rw [Item.scan, scanYear_cons_eq_none h]; rfl
  | fraction => cases h
  | offset => rw [Item.scan, scanOffset_cons_eq_none h]; rfl
  | month | day | hour | minute | second =>
    obtain ⟨hblank, hdigit⟩ := Bool.or_eq_false_iff.mp h
    rw [Item.scan, scanNumber_cons_eq_none hblank hdigit]; rfl

theorem scan_nil_eq_none {item : Item} (h : item.isOptional = false) (f : Fields) :
    item.scan f [] = none := by
  cases item with
  | fraction => cases h
  | literal | year | month | day | hour | minute | second | offset => rfl

/-- Of two items that clash one reads nothing. -/
theorem scan_eq_none_of_clashes {a b : Item} (h : a.clashes b = true) (f : Fields)
    (cs : List Char) : a.scan f cs = none ∨ b.scan f cs = none := by
  have hliteral : ∀ {c : Char} {item : Item}, item.starts c = false →
      (Item.literal c).scan f cs = none ∨ item.scan f cs = none := by
    intro c item hstarts
    cases cs with
    | nil => exact .inl rfl
    | cons d cs =>
      by_cases hd : d = c
      · exact .inr (hd ▸ scan_eq_none_of_not_starts hstarts f cs)
      · exact .inl (if_neg hd)
  unfold Item.clashes at h
  split at h
  · exact hliteral (by simpa using h)
  · exact (hliteral (by simpa using h)).symm
  · cases h

/-- Two patterns that clash do not both use a text up. -/
theorem not_scan_of_clashes {a b : Fields} (h : p.clashes q = true) (f : Fields) (cs : List Char)
    (hp : p.scan f cs = some (a, [])) : q.scan f cs ≠ some (b, []) := by
  fun_induction Pattern.clashes p q generalizing f cs with
  | case1 => cases h
  | case2 item q =>
    cases hp
    rw [Pattern.scan, scan_nil_eq_none (by simpa using h)]
    simp
  | case3 item p =>
    intro hq
    cases hq
    rw [Pattern.scan, scan_nil_eq_none (by simpa using h)] at hp
    cases hp
  | case4 item p q ih =>
    obtain ⟨⟨g, rest⟩, hitem, hp⟩ := Option.bind_eq_some_iff.mp hp
    rw [Pattern.scan, hitem, Option.bind_some]
    exact ih h g rest hp
  | case5 a p b q hne =>
    intro hq
    obtain ⟨_, ha, -⟩ := Option.bind_eq_some_iff.mp hp
    obtain ⟨_, hb, -⟩ := Option.bind_eq_some_iff.mp hq
    rcases scan_eq_none_of_clashes h f cs with hnone | hnone
    · rw [hnone] at ha; cases ha
    · rw [hnone] at hb; cases hb

theorem not_accepts_of_clashes (h : p.clashes q = true) (cs : List Char) :
    ¬ (p.Accepts cs ∧ q.Accepts cs) := by
  rintro ⟨hp, hq⟩
  obtain ⟨a, ha⟩ := accepts_iff.mp hp
  obtain ⟨b, hb⟩ := accepts_iff.mp hq
  exact not_scan_of_clashes h {} cs ha hb

/-- All the ways to write a timestamp. -/
def timestampPatterns : List Pattern := offsetPatterns ++ floatingPatterns

theorem clashes_datePatterns : datePatterns.Pairwise fun p q => p.clashes q = true := by
  decide

theorem clashes_timestampPatterns : timestampPatterns.Pairwise fun p q => p.clashes q = true := by
  decide

theorem read_eq_none_of_clashes (h : p.clashes q = true) (cs : List Char) :
    p.read cs = none ∨ q.read cs = none := by
  cases hp : p.read cs with
  | none => exact .inl rfl
  | some f =>
    cases hq : q.read cs with
    | none => exact .inr rfl
    | some g =>
      exact absurd ⟨by rw [Pattern.Accepts, hp]; rfl, by rw [Pattern.Accepts, hq]; rfl⟩
        (not_accepts_of_clashes h cs)

/-! ### The order of trial -/

/-- If no two members of a list give a value, it does not matter in which order they are tried. -/
theorem findSome?_of_perm {α β : Type} {f : α → Option β} {l l' : List α} (h : l.Perm l')
    (honly : l.Pairwise fun a b => f a = none ∨ f b = none) : l.findSome? f = l'.findSome? f := by
  induction h with
  | nil => rfl
  | cons a _ ih => rw [List.findSome?_cons, List.findSome?_cons, ih (List.pairwise_cons.mp honly).2]
  | swap a b l =>
    simp only [List.findSome?_cons]
    rcases (List.pairwise_cons.mp honly).1 a (List.mem_cons_self ..) with hnone | hnone
    · rw [hnone]
    · rw [hnone]
  | trans h _ ih ih' => rw [ih honly, ih' ((h.pairwise_iff Or.symm).mp honly)]

/-- What a pattern reads a text as: an instant, which is moved to the zone, if it has an offset. -/
def Pattern.reading? (zone : Offset) (p : Pattern) (cs : List Char) : Option Reading :=
  if Item.offset ∈ p then (p.instant? cs).map (Reading.ofInstant zone)
  else (p.moment? cs).map .moment

/-- Reads a timestamp as `parseLocal` does, but by patterns in any order. Before a final `Z` only
those without an offset are tried. -/
def parseLocalIn (order : List Pattern) (zone : Offset) (s : String) : Reading :=
  match withoutZulu? s.toList with
  | some cs =>
    match (order.filter (Item.offset ∉ ·)).findSome? (·.moment? cs) with
    | some instant => .ofInstant zone instant
    | none => .unreadable
  | none => (order.findSome? (·.reading? zone s.toList)).getD .unreadable

/-- Patterns no two of which accept a text may be tried in any order. -/
theorem findSome?_patterns {β : Type} {patterns order : List Pattern} {f : Pattern → Option β}
    (hclash : patterns.Pairwise fun p q => p.clashes q = true) (h : order.Perm patterns)
    (hf : ∀ p, p.read cs = none → f p = none) : order.findSome? f = patterns.findSome? f :=
  (findSome?_of_perm h.symm <| hclash.imp fun hpq =>
    (read_eq_none_of_clashes hpq cs).imp (hf _) (hf _)).symm

/-- What such patterns read a text as is what any one of them reads it as. -/
theorem findSome?_patterns_eq_some_iff {β : Type} {patterns : List Pattern}
    {f : Pattern → Option β} {b : β} (hclash : patterns.Pairwise fun p q => p.clashes q = true)
    (hf : ∀ p, p.read cs = none → f p = none) :
    patterns.findSome? f = some b ↔ ∃ p ∈ patterns, f p = some b := by
  constructor
  · exact List.exists_of_findSome?_eq_some
  · rintro ⟨p, hp, hb⟩
    rw [← findSome?_patterns hclash (List.perm_cons_erase hp).symm hf, List.findSome?_cons, hb]

theorem parseDate_of_perm {order : List Pattern} (h : order.Perm datePatterns) (s : String) :
    order.findSome? (·.date? s.toList) = parseDate s :=
  findSome?_patterns clashes_datePatterns h fun p hp => by rw [Pattern.date?, hp, Option.bind_none]

theorem moment?_eq_none (h : p.read cs = none) : p.moment? cs = none := by
  rw [Pattern.moment?, h, Option.bind_none]

theorem parseFloating_eq_some_iff {m : Moment} :
    parseFloating cs = some m ↔ ∃ p ∈ floatingPatterns, p.moment? cs = some m :=
  findSome?_patterns_eq_some_iff (clashes_timestampPatterns.sublist (List.sublist_append_right ..))
    fun _ => moment?_eq_none

theorem parseInstant_eq_some_iff {u : Moment} :
    parseInstant cs = some u ↔ ∃ p ∈ offsetPatterns, p.instant? cs = some u :=
  findSome?_patterns_eq_some_iff (clashes_timestampPatterns.sublist (List.sublist_append_left ..))
    fun p hp => by rw [Pattern.instant?, hp, Option.bind_none]

theorem reading?_eq_none {zone : Offset} (h : p.read cs = none) : p.reading? zone cs = none := by
  simp only [Pattern.reading?, Pattern.instant?, Pattern.moment?, h, Option.bind_none,
    Option.map_none, ite_self]

theorem parseLocalIn_timestampPatterns (zone : Offset) (s : String) :
    parseLocalIn timestampPatterns zone s = parseLocal zone s := by
  have hinstant : ∀ cs, offsetPatterns.findSome? (·.reading? zone cs) =
      (parseInstant cs).map (.ofInstant zone) := by
    intro cs
    rw [parseInstant, List.map_findSome?]
    rfl
  have hfloating : ∀ cs, floatingPatterns.findSome? (·.reading? zone cs) =
      (parseFloating cs).map .moment := by
    intro cs
    rw [parseFloating, List.map_findSome?]
    rfl
  have hfilter : ∀ cs, (timestampPatterns.filter (Item.offset ∉ ·)).findSome? (·.moment? cs) =
      parseFloating cs := fun _ => rfl
  have hall : timestampPatterns.findSome? (·.reading? zone s.toList) =
      ((parseInstant s.toList).map (.ofInstant zone)).or
        ((parseFloating s.toList).map .moment) := by
    rw [timestampPatterns, List.findSome?_append, hinstant, hfloating]
  simp only [parseLocalIn, parseLocal, hfilter, hall]
  cases withoutZulu? s.toList with
  | some cs => rfl
  | none =>
    cases parseInstant s.toList with
    | some instant => rfl
    | none => cases parseFloating s.toList <;> rfl

/-- Timestamps may be read by their patterns in any order. -/
theorem parseLocalIn_of_perm {order : List Pattern} (h : order.Perm timestampPatterns)
    (zone : Offset) (s : String) : parseLocalIn order zone s = parseLocal zone s := by
  have hfloating : ∀ cs, (order.filter (Item.offset ∉ ·)).findSome? (·.moment? cs) =
      (timestampPatterns.filter (Item.offset ∉ ·)).findSome? (·.moment? cs) := fun cs =>
    findSome?_patterns (clashes_timestampPatterns.filter _) (h.filter _) fun _ =>
      @moment?_eq_none _ cs
  have hall : order.findSome? (·.reading? zone s.toList) =
      timestampPatterns.findSome? (·.reading? zone s.toList) :=
    findSome?_patterns clashes_timestampPatterns h fun _ => reading?_eq_none
  rw [← parseLocalIn_timestampPatterns, parseLocalIn, parseLocalIn, hall]
  simp only [hfloating]

/-! ### Dates and timestamps -/

theorem hasTime_iff {s : String} : hasTime s = true ↔ 'T' ∈ s.toList := List.contains_iff_mem

/-- What is read as a date holds no `T`. -/
theorem hasTime_of_parseDate {s : String} {d : Date} (h : parseDate s = some d) :
    hasTime s = false := by
  obtain ⟨p, hp, hd⟩ := List.exists_of_findSome?_eq_some h
  have hnone : ∀ p ∈ datePatterns, Item.literal 'T' ∉ p := by decide
  rw [← Bool.not_eq_true, hasTime_iff, mem_iff_of_accepts (accepts_of_bind_eq_some hd) (by decide)]
  exact hnone p hp

/-- What a pattern for timestamps accepts holds a `T`, and no `Z`. -/
theorem letters_of_accepts (hp : p ∈ timestampPatterns) (h : p.Accepts cs) :
    'T' ∈ cs ∧ 'Z' ∉ cs ∧ 'z' ∉ cs := by
  have hletters : ∀ p ∈ timestampPatterns,
      Item.literal 'T' ∈ p ∧ Item.literal 'Z' ∉ p ∧ Item.literal 'z' ∉ p := by decide
  rw [mem_iff_of_accepts h (by decide), mem_iff_of_accepts h (by decide),
    mem_iff_of_accepts h (by decide)]
  exact hletters p hp

theorem withoutZulu?_eq_none (hZ : 'Z' ∉ cs) (hz : 'z' ∉ cs) : withoutZulu? cs = none := by
  unfold withoutZulu?
  split
  next c hlast =>
    refine if_neg ?_
    rintro (rfl | rfl)
    · exact hZ (List.mem_of_getLast? hlast)
    · exact hz (List.mem_of_getLast? hlast)
  next => rfl

theorem exists_of_withoutZulu? {before : List Char} (h : withoutZulu? cs = some before) :
    ∃ c, cs = before ++ [c] ∧ (c = 'Z' ∨ c = 'z') := by
  unfold withoutZulu? at h
  split at h
  next c hlast =>
    split at h <;> cases h
    next hc => exact ⟨c, (List.dropLast_append_getLast? c hlast).symm, hc⟩
  next => cases h

theorem mem_of_parseFloating {m : Moment} (h : parseFloating cs = some m) : 'T' ∈ cs := by
  obtain ⟨p, hp, hm⟩ := parseFloating_eq_some_iff.mp h
  exact (letters_of_accepts (List.mem_append_right _ hp) (accepts_of_bind_eq_some hm)).1

theorem mem_of_parseInstant {m : Moment} (h : parseInstant cs = some m) : 'T' ∈ cs := by
  obtain ⟨p, hp, hm⟩ := parseInstant_eq_some_iff.mp h
  exact (letters_of_accepts (List.mem_append_left _ hp) (accepts_of_bind_eq_some hm)).1

/-- What is read as a timestamp holds a `T`. -/
theorem hasTime_of_parseLocal {zone : Offset} {s : String} (h : parseLocal zone s ≠ .unreadable) :
    hasTime s = true := by
  rw [hasTime_iff]
  unfold parseLocal at h
  simp only at h
  split at h
  next before hbefore =>
    split at h
    next instant hinstant =>
      obtain ⟨c, hc, -⟩ := exists_of_withoutZulu? hbefore
      rw [hc]
      exact List.mem_append_left _ (mem_of_parseFloating hinstant)
    next => exact absurd rfl h
  next =>
    split at h
    next instant hinstant => exact mem_of_parseInstant hinstant
    next =>
      cases hlocal : parseFloating s.toList with
      | some m => exact mem_of_parseFloating hlocal
      | none =>
        rw [hlocal] at h
        exact absurd rfl h

/-- A floating timestamp is read alike in every zone. -/
theorem parseLocal_of_moment? {s : String} {m : Moment} (hp : p ∈ floatingPatterns)
    (hm : p.moment? s.toList = some m) (zone : Offset) : parseLocal zone s = .moment m := by
  have hmem : p ∈ timestampPatterns := List.mem_append_right _ hp
  obtain ⟨-, hZ, hz⟩ := letters_of_accepts hmem (accepts_of_bind_eq_some hm)
  have hfloating : ∀ p ∈ floatingPatterns, Item.offset ∉ p := by decide
  have hreading : p.reading? zone s.toList = some (.moment m) := by
    rw [Pattern.reading?, if_neg (hfloating p hp), hm, Option.map_some]
  -- `p` may as well be tried first
  rw [← parseLocalIn_of_perm (List.perm_cons_erase hmem).symm, parseLocalIn,
    withoutZulu?_eq_none hZ hz]
  simp only [List.findSome?_cons, hreading, Option.getD_some]

/-- No text is written in two patterns, so dates and timestamps may be read by their patterns in any
order. A timestamp without an offset or a final `Z` is read alike in every zone. A value that can be
read at all is a date if it holds no `T` and a timestamp if it holds one. -/
theorem patterns_unambiguous (s : String) :
    (datePatterns.Pairwise fun p q => ¬ (p.Accepts s.toList ∧ q.Accepts s.toList)) ∧
    (timestampPatterns.Pairwise fun p q => ¬ (p.Accepts s.toList ∧ q.Accepts s.toList)) ∧
    (∀ order : List Pattern, order.Perm datePatterns →
      order.findSome? (·.date? s.toList) = parseDate s) ∧
    (∀ order : List Pattern, order.Perm timestampPatterns →
      ∀ zone, parseLocalIn order zone s = parseLocal zone s) ∧
    (∀ p ∈ floatingPatterns, ∀ m, p.moment? s.toList = some m →
      ∀ zone, parseLocal zone s = .moment m) ∧
    (∀ d, parseDate s = some d → hasTime s = false) ∧
    ∀ zone, parseLocal zone s ≠ .unreadable → hasTime s = true := by
  refine ⟨?_, ?_, ?_, ?_, ?_, ?_, ?_⟩
  · exact clashes_datePatterns.imp fun h => not_accepts_of_clashes h s.toList
  · exact clashes_timestampPatterns.imp fun h => not_accepts_of_clashes h s.toList
  · exact fun order h => parseDate_of_perm h s
  · exact fun order h zone => parseLocalIn_of_perm h zone s
  · exact fun p hp m hm => parseLocal_of_moment? hp hm
  · exact fun d => hasTime_of_parseDate
  · exact fun zone => hasTime_of_parseLocal

end Timestamp

/-- Five past nine on a leap day. -/
def Sample.morning : Moment :=
  ⟨Sample.day 2024 2 29, (TimeOfDay.ofClock? 9 5 0 0).get (by decide)⟩

/-- A date and a time in the basic form, read by the patterns in reverse order. -/
theorem Timestamp.patterns_unambiguous_sample :
    datePatterns.reverse.findSome? (·.date? "20240229".toList) = parseDate "20240229" ∧
    hasTime "20240229" = false ∧
    ∀ zone, parseLocalIn timestampPatterns.reverse zone "20240229T0905" =
        parseLocal zone "20240229T0905" ∧
      parseLocal zone "20240229T0905" = .moment Sample.morning ∧
      hasTime "20240229T0905" = true := by
  obtain ⟨-, -, hdate, -, -, hplain, -⟩ := patterns_unambiguous "20240229"
  obtain ⟨-, -, -, horder, hfloating, -, htime⟩ := patterns_unambiguous "20240229T0905"
  have hread : parseDate "20240229" = some (Sample.day 2024 2 29) := by decide
  have hmoment : basicMinute.moment? "20240229T0905".toList = some Sample.morning := by decide
  have hlocal := hfloating basicMinute (by decide) _ hmoment
  refine ⟨hdate _ (List.reverse_perm _), hplain _ hread, fun zone => ?_⟩
  exact ⟨horder _ (List.reverse_perm _) zone, hlocal zone, htime zone (by rw [hlocal]; simp)⟩

end WallCalendar
