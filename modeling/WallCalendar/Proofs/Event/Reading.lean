import WallCalendar.Event.Basic
import WallCalendar.Proofs.Except
import WallCalendar.Proofs.Timestamp.Unambiguous

/-!
What becomes of an entry.

A timestamp shows a local moment or names an instant, and an instant is moved to the zone of the
calendar. At the two ends of the calendar it can be moved out of it, and that is the one way in
which reading an entry fails without an error that names the entry. It takes an instant of the first
day and a zone behind UTC, or an instant of the last day and a zone ahead.
-/

namespace WallCalendar

/-! ### Reading a timestamp -/

namespace Timestamp

variable {zone : Offset} {s : String} {m u : Moment}

/-- A text shows the local moment `m`. -/
def Shows (s : String) (m : Moment) : Prop := ∃ p ∈ floatingPatterns, p.moment? s.toList = some m

/-- A text names the instant `u`. -/
inductive Names (s : String) (u : Moment) : Prop where
  /-- It is written in UTC, before a final `Z`. -/
  | zulu {cs : List Char} {c : Char} {p : Pattern} : s.toList = cs ++ [c] → c = 'Z' ∨ c = 'z' →
      p ∈ floatingPatterns → p.moment? cs = some u → Names s u
  /-- It is written with an offset. -/
  | offset {p : Pattern} : p ∈ offsetPatterns → p.instant? s.toList = some u → Names s u

/-- What a text is read as in a zone. -/
inductive ReadAs (zone : Offset) (s : String) : Reading → Prop where
  | shown {m : Moment} : Shows s m → ReadAs zone s (.moment m)
  | moved {u m : Moment} : Names s u → u.IsAfter zone.seconds m → ReadAs zone s (.moment m)
  | beyond {u : Moment} : Names s u → u.Leaves zone.seconds → ReadAs zone s .beyondCalendar
  | unreadable : (∀ m, ¬ Shows s m) → (∀ u, ¬ Names s u) → ReadAs zone s .unreadable

theorem parseLocal_of_names (h : Names s u) (zone : Offset) :
    parseLocal zone s = .ofInstant zone u := by
  cases h with
  | @zulu cs c p hs hc hp hu =>
    have hletter : withoutZulu? s.toList = some cs := by
      rw [hs, withoutZulu?_concat, if_pos hc]
    have hfloating : parseFloating cs = some u := parseFloating_eq_some_iff.mpr ⟨p, hp, hu⟩
    simp only [parseLocal, hletter, hfloating]
  | @offset p hp hu =>
    obtain ⟨-, hZ, hz⟩ :=
      letters_of_accepts (List.mem_append_left _ hp) (accepts_of_bind_eq_some hu)
    have hinstant : parseInstant s.toList = some u := parseInstant_eq_some_iff.mpr ⟨p, hp, hu⟩
    simp only [parseLocal, withoutZulu?_eq_none hZ hz, hinstant]

theorem parseLocal_of_not_names (hshows : ∀ m, ¬ Shows s m) (hnames : ∀ u, ¬ Names s u)
    (zone : Offset) : parseLocal zone s = .unreadable := by
  simp only [parseLocal]
  split
  next cs hletter =>
    obtain ⟨c, hs, hc⟩ := exists_of_withoutZulu? hletter
    cases hfloating : parseFloating cs with
    | none => rfl
    | some u =>
      obtain ⟨p, hp, hu⟩ := parseFloating_eq_some_iff.mp hfloating
      exact absurd (.zulu hs hc hp hu) (hnames u)
  next =>
    cases hinstant : parseInstant s.toList with
    | some u =>
      obtain ⟨p, hp, hu⟩ := parseInstant_eq_some_iff.mp hinstant
      exact absurd (.offset hp hu) (hnames u)
    | none =>
      cases hfloating : parseFloating s.toList with
      | none => rfl
      | some m => exact absurd (parseFloating_eq_some_iff.mp hfloating) (hshows m)

/-- The reading of an instant is the moment it is moved to, if the calendar has it. -/
theorem readAs_ofInstant (h : Names s u) (zone : Offset) : ReadAs zone s (.ofInstant zone u) := by
  unfold Reading.ofInstant
  split
  next m hm => exact .moved h (Moment.shift?_eq_some_iff.mp hm)
  next hnone => exact .beyond h (Moment.shift?_eq_none_iff.mp hnone)

/-- The reading of a text is the one that its letters give it. -/
theorem parseLocal_eq_iff {r : Reading} : parseLocal zone s = r ↔ ReadAs zone s r := by
  constructor
  · rintro rfl
    by_cases hnames : ∃ u, Names s u
    · obtain ⟨u, hu⟩ := hnames
      rw [parseLocal_of_names hu]
      exact readAs_ofInstant hu zone
    · by_cases hshows : ∃ m, Shows s m
      · obtain ⟨m, p, hp, hm⟩ := hshows
        rw [parseLocal_of_moment? hp hm]
        exact .shown ⟨p, hp, hm⟩
      · rw [parseLocal_of_not_names (not_exists.mp hshows) (not_exists.mp hnames)]
        exact .unreadable (not_exists.mp hshows) (not_exists.mp hnames)
  · intro h
    cases h with
    | shown hm =>
      obtain ⟨p, hp, hm⟩ := hm
      exact parseLocal_of_moment? hp hm zone
    | moved hu hm =>
      rw [parseLocal_of_names hu, Reading.ofInstant, Moment.shift?_eq_some_iff.mpr hm]
    | beyond hu hm =>
      rw [parseLocal_of_names hu, Reading.ofInstant, Moment.shift?_eq_none_iff.mpr hm]
    | unreadable hshows hnames => exact parseLocal_of_not_names hshows hnames zone

/-- A text names an instant that the zone moves out of the calendar. -/
def LeavesCalendar (zone : Offset) (s : String) : Prop := ∃ u, Names s u ∧ u.Leaves zone.seconds

theorem parseLocal_eq_beyondCalendar_iff :
    parseLocal zone s = .beyondCalendar ↔ LeavesCalendar zone s := by
  rw [parseLocal_eq_iff]
  constructor
  · rintro (_ | _ | ⟨hu, hm⟩ | _)
    exact ⟨_, hu, hm⟩
  · rintro ⟨u, hu, hm⟩
    exact .beyond hu hm

end Timestamp

/-! ### Reading an entry -/

namespace Entry

open Timestamp

variable {zone : Offset} {e : Entry} {value : String} {error : EventError}

theorem readMoment_eq_ok_iff {m : Moment} :
    e.readMoment zone value = .ok m ↔ ReadAs zone value (.moment m) := by
  rw [← parseLocal_eq_iff, readMoment]
  split <;> simp [*]

theorem readMoment_eq_error_iff : e.readMoment zone value = .error error ↔
    ReadAs zone value .unreadable ∧ error = .unreadable e.title value ∨
      LeavesCalendar zone value ∧ error = .beyondCalendar := by
  rw [← parseLocal_eq_iff, ← parseLocal_eq_beyondCalendar_iff, readMoment]
  split <;> simp [*, eq_comm]

theorem readDate_eq_error_iff : e.readDate value = .error error ↔
    parseDate value = none ∧ error = .unreadable e.title value := by
  rw [readDate]
  split <;> simp [*, eq_comm]

/-- One end after the other is read, and the first that fails gives the error. -/
theorem readEnds_eq_error_iff {α : Type} {read : String → Except EventError α}
    {span : α → α → Span} :
    (do let start ← read e.startAt; let stop ← read e.endAt; return span start stop) =
        (.error error : Except EventError Span) ↔
      read e.startAt = .error error ∨
        (∃ start, read e.startAt = .ok start) ∧ read e.endAt = .error error := by
  simp only [bind_eq_error_iff, pure, Except.pure, reduceCtorEq, and_false, exists_false, or_false,
    exists_and_right]

/-- The ways in which an entry is not read. -/
theorem readSpan_eq_error_iff : e.readSpan zone = .error error ↔
    hasTime e.startAt ≠ hasTime e.endAt ∧ error = .mixedEnds e.title e.startAt e.endAt ∨
    (hasTime e.startAt = false ∧ hasTime e.endAt = false) ∧
      (e.readDate e.startAt = .error error ∨
        (∃ d, e.readDate e.startAt = .ok d) ∧ e.readDate e.endAt = .error error) ∨
    (hasTime e.startAt = true ∧ hasTime e.endAt = true) ∧
      (e.readMoment zone e.startAt = .error error ∨
        (∃ m, e.readMoment zone e.startAt = .ok m) ∧ e.readMoment zone e.endAt = .error error) := by
  unfold readSpan
  cases hstart : hasTime e.startAt <;> cases hstop : hasTime e.endAt <;>
    simp only [readEnds_eq_error_iff] <;> simp [eq_comm]

/-- Both ends are times, and the first of them that is no moment leaves the calendar. -/
def IsBeyond (zone : Offset) (e : Entry) : Prop :=
  (hasTime e.startAt = true ∧ hasTime e.endAt = true) ∧
    (LeavesCalendar zone e.startAt ∨
      (∃ m, ReadAs zone e.startAt (.moment m)) ∧ LeavesCalendar zone e.endAt)

theorem readSpan_eq_beyondCalendar_iff :
    e.readSpan zone = .error .beyondCalendar ↔ e.IsBeyond zone := by
  simp [readSpan_eq_error_iff, readDate_eq_error_iff, readMoment_eq_error_iff,
    readMoment_eq_ok_iff, IsBeyond]

/-- The errors that name an entry: its ends are of two kinds, or one of them cannot be read. -/
def NamedIn (e : Entry) (error : EventError) : Prop :=
  error = .mixedEnds e.title e.startAt e.endAt ∨
    ∃ value ∈ [e.startAt, e.endAt], error = .unreadable e.title value

/-- An entry that is not read is named in the error, unless it leaves the calendar. -/
theorem namedIn_of_readSpan (h : e.readSpan zone = .error error) (hne : error ≠ .beyondCalendar) :
    e.NamedIn error := by
  have hdate : ∀ {value}, value ∈ [e.startAt, e.endAt] → e.readDate value = .error error →
      e.NamedIn error := by
    intro value hvalue hread
    exact .inr ⟨value, hvalue, (readDate_eq_error_iff.mp hread).2⟩
  have hmoment : ∀ {value}, value ∈ [e.startAt, e.endAt] →
      e.readMoment zone value = .error error → e.NamedIn error := by
    intro value hvalue hread
    rcases readMoment_eq_error_iff.mp hread with ⟨-, herror⟩ | ⟨-, herror⟩
    · exact .inr ⟨value, hvalue, herror⟩
    · exact absurd herror hne
  rcases readSpan_eq_error_iff.mp h with ⟨-, herror⟩ | ⟨-, hstart | ⟨-, hstop⟩⟩ |
    ⟨-, hstart | ⟨-, hstop⟩⟩
  · exact .inl herror
  · exact hdate (by simp) hstart
  · exact hdate (by simp) hstop
  · exact hmoment (by simp) hstart
  · exact hmoment (by simp) hstop

end Entry

namespace Event

theorem ofEntry_eq_error_iff {zone : Offset} {e : Entry} {error : EventError} :
    ofEntry zone e = .error error ↔ e.readSpan zone = .error error := by
  rw [ofEntry, bind_eq_error_iff]
  simp [pure, Except.pure]

/-- An entry is read as an event or is named in the error, unless one of its ends names an instant
that the zone moves out of the calendar. That takes an instant of the first day of the calendar and
a zone behind UTC, or an instant of its last day and a zone ahead. -/
theorem ofEntry_beyondCalendar_iff (zone : Offset) (e : Entry) :
    (ofEntry zone e = .error .beyondCalendar ↔ e.IsBeyond zone) ∧
    (¬ e.IsBeyond zone →
      (∃ event, ofEntry zone e = .ok event) ∨ ∃ error, ofEntry zone e = .error error ∧
        e.NamedIn error) ∧
    ∀ value, Timestamp.LeavesCalendar zone value → ∃ u, Timestamp.Names value u ∧
      (zone.seconds < 0 ∧ u.date.number = firstDay ∨
        0 < zone.seconds ∧ u.date.number = WallCalendar.lastDay) := by
  have hiff : ofEntry zone e = .error .beyondCalendar ↔ e.IsBeyond zone :=
    ofEntry_eq_error_iff.trans Entry.readSpan_eq_beyondCalendar_iff
  refine ⟨hiff, ?_, ?_⟩
  · intro hnot
    cases h : ofEntry zone e with
    | ok event => exact .inl ⟨event, rfl⟩
    | error error =>
      refine .inr ⟨error, rfl, Entry.namedIn_of_readSpan (ofEntry_eq_error_iff.mp h) ?_⟩
      rintro rfl
      exact hnot (hiff.mp h)
  · rintro value ⟨u, hu, hleaves⟩
    exact ⟨u, hu, hleaves.at_end⟩

end Event

namespace Sample

/-- One hour ahead of UTC. -/
def ahead : Offset := (Offset.ofSeconds? 3600).get (by decide)

/-- A quarter of an hour at the end of the last day of the calendar, in UTC. -/
def lastMinutes : Entry where
  title := "Late"
  startAt := "+262142-12-31T23:30Z"
  endAt := "+262142-12-31T23:45Z"

end Sample

/-- One hour ahead of UTC the calendar ends before the entry begins, and the error does not name
it. -/
theorem Event.ofEntry_lastMinutes :
    ofEntry Sample.ahead Sample.lastMinutes = .error .beyondCalendar ∧
      ¬ Sample.lastMinutes.NamedIn .beyondCalendar :=
  ⟨rfl, by simp [Entry.NamedIn]⟩

/-- On the Pacific coast the entry is read. -/
theorem Event.ofEntry_beyondCalendar_iff_sample :
    Sample.lastMinutes.IsBeyond Sample.ahead ∧
    Timestamp.LeavesCalendar Sample.ahead Sample.lastMinutes.startAt ∧
    (∃ u, Timestamp.Names Sample.lastMinutes.startAt u ∧ u.date.number = WallCalendar.lastDay) ∧
    ¬ Sample.lastMinutes.IsBeyond Sample.pacific ∧
    ∃ event, ofEntry Sample.pacific Sample.lastMinutes = .ok event := by
  obtain ⟨hahead, -, hends⟩ := ofEntry_beyondCalendar_iff Sample.ahead Sample.lastMinutes
  obtain ⟨hpacific, hread, -⟩ := ofEntry_beyondCalendar_iff Sample.pacific Sample.lastMinutes
  have hleaves : Timestamp.LeavesCalendar Sample.ahead Sample.lastMinutes.startAt :=
    Timestamp.parseLocal_eq_beyondCalendar_iff.mp rfl
  have hnot : ¬ Sample.lastMinutes.IsBeyond Sample.pacific := by
    rw [← hpacific]
    decide
  refine ⟨hahead.mp rfl, hleaves, ?_, hnot, ?_⟩
  · obtain ⟨u, hu, ⟨hbehind, -⟩ | ⟨-, hlast⟩⟩ := hends _ hleaves
    · exact absurd hbehind (by decide)
    · exact ⟨u, hu, hlast⟩
  · rcases hread hnot with hok | ⟨error, herror, -⟩
    · exact hok
    · have hsome : (ofEntry Sample.pacific Sample.lastMinutes).toOption.isSome = true := by decide
      rw [herror] at hsome
      exact absurd hsome (by simp [Except.toOption])

end WallCalendar
