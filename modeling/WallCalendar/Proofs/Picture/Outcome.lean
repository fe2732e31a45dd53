import WallCalendar.Proofs.Lane.Finish
import WallCalendar.Proofs.Picture

/-!
What becomes of a year of entries.

Three things can go wrong, and they are looked for in turn: the year has no grid, an entry is no
event, an event touches a day that the grid does not show. The first entry or event at fault is the
one reported. Once the grid shows both ends of every event nothing else can fail: the edges can be
swept to the end, every closing edge gives a segment, and every stacked event finds its day.
-/

namespace WallCalendar

/-! ### Layouts that fail -/

namespace Layout

variable {g : Grid} {events : List Event} {error : LayoutError}

/-- The date an event is reported with: its first day if the grid does not show that, else its
last. -/
def blamed (g : Grid) (e : Event) : Date :=
  if g.contains e.startDate then e.lastDay else e.startDate

theorem checkEvent_eq_error_iff {e : Event} : checkEvent g e = .error error ↔
    ¬ g.Shows e ∧ error = .outsideGrid e.title (blamed g e) := by
  unfold checkEvent checkDate Grid.Shows blamed
  cases g.contains e.startDate <;> cases g.contains e.lastDay <;>
    simp [bind, Except.bind, eq_comm]

/-- Events pass the check if the grid shows all of them. -/
theorem forall_shows (h : events.forM (checkEvent g) = .ok ()) : ∀ e ∈ events, g.Shows e :=
  fun e he => checkEvent_eq_ok_iff.mp (forM_eq_ok_iff.mp h e he)

/-- Events have no layout if the grid does not show one of them, and the first such is reported. -/
theorem ofEvents_eq_error_iff : ofEvents g events = .error error ↔
    ∃ e, IsFirst (fun e => ¬ g.Shows e) events e ∧ error = .outsideGrid e.title (blamed g e) := by
  have hfails : ∀ e, (∃ error, checkEvent g e = .error error) ↔ ¬ g.Shows e := fun e => by
    simp [checkEvent_eq_error_iff]
  rw [ofEvents, bind_eq_error_iff, forM_eq_error_iff]
  simp only [FirstError, hfails]
  simp only [checkEvent_eq_error_iff]
  constructor
  · rintro (⟨e, hfirst, -, rfl⟩ | ⟨⟨⟩, hcheck, hplace⟩)
    · exact ⟨e, hfirst, rfl⟩
    · rw [place_eq (forall_shows hcheck)] at hplace
      cases hplace
  · rintro ⟨e, hfirst, rfl⟩
    obtain ⟨-, -, -, hnot, -⟩ := id hfirst
    exact .inl ⟨e, hfirst, hnot, rfl⟩

/-! ### After the check -/

/-- Every closing edge of the swept pieces of bars gives a segment. -/
theorem isSome_ofClose? {bars : List Event} {close : Edge}
    (hmem : close ∈ (swept g bars).arena) (hclose : close.isClose = true) :
    (Segment.ofClose? bars.toArray (swept g bars).arena close).isSome = true := by
  obtain ⟨i, hi⟩ := Array.mem_iff_getElem?.mp hmem
  rw [swept, arena_allocate_decompose, List.getElem?_toArray] at hi
  obtain ⟨k, rfl | rfl⟩ : ∃ k, i = 2 * k ∨ i = 2 * k + 1 := ⟨i / 2, by omega⟩
  · rw [Piece.getElem?_edges_even, Option.map_eq_some_iff] at hi
    obtain ⟨p, -, rfl⟩ := hi
    cases hclose
  · rw [Piece.getElem?_edges_odd, Option.map_eq_some_iff, Nat.zero_add] at hi
    obtain ⟨p, hk, rfl⟩ := hi
    obtain ⟨lane, hlane⟩ := exists_laneOf? hk
    have howner : bars.toArray[p.index]? = some p.owner := by
      rw [List.getElem?_toArray]
      exact (mem_piecesOf.mp (List.mem_of_getElem? hk)).1
    have hopen : (swept g bars).arena[2 * k]? = some (p.opening (some lane)) := by
      rw [swept, arena_allocate_decompose, List.getElem?_toArray, Piece.getElem?_edges_even, hk,
        Nat.zero_add, hlane]
      rfl
    rw [Segment.ofClose?_closing howner hopen]
    rfl

theorem date?_eq_day (g : Grid) (i : Fin g.days) : g.date? i = some (g.day i) :=
  Grid.date?_eq_some_iff.mpr (g.ord_day i)

/-- No step of placing events on a grid fails. -/
structure Placeable (g : Grid) (events : List Event) : Prop where
  /-- The edges of the bars can be put in order, and nothing stops their sweep. -/
  finishes : (decompose g (events.filter Event.isBar)).Finishes
    (events.filter Event.isBar).toArray
  /-- Every closing edge has its opening edge, its lane and its event. -/
  drawn : ∀ close ∈ (swept g (events.filter Event.isBar)).arena, close.isClose = true →
    (Segment.ofClose? (events.filter Event.isBar).toArray
      (swept g (events.filter Event.isBar)).arena close).isSome = true
  /-- Every ordinal of the grid has its date. -/
  dated : ∀ i : Fin g.days, g.date? i = some (g.day i)
  /-- Every other event is taken on its day. -/
  drained : ((DayStack.ofEvents (events.filter (!·.isBar))).popAll g.dates).2.leftover? = none
  placed : ∃ l, place g events = .ok l

/-- Events that the grid shows are placed without a fault. -/
theorem placeable_of_check (h : events.forM (checkEvent g) = .ok ()) : Placeable g events where
  finishes := Arena.finishes_decompose g _
  drawn _ := isSome_ofClose?
  dated := date?_eq_day g
  drained := by rw [popAll_dates (forall_shows h)]; rfl
  placed := ⟨_, place_eq (forall_shows h)⟩

end Layout

/-! ### Pictures -/

namespace Picture

/-- What becomes of a year of entries. -/
inductive Outcome (name : String) (year : Int) (zone : Offset) (entries : List Entry) :
    Except PictureError Picture → Prop where
  /-- The year has no grid. -/
  | noGrid : Grid.ofYear? year = none →
      Outcome name year zone entries (.error (.layout (.unsupportedYear year)))
  /-- An entry is no event, and all before it are. -/
  | unread {g : Grid} {entry : Entry} {error : EventError} : Grid.ofYear? year = some g →
      IsFirst (fun e => ∃ error, Event.ofEntry zone e = .error error) entries entry →
      Event.ofEntry zone entry = .error error →
      Outcome name year zone entries (.error (.event error))
  /-- All entries are events, of which one is not shown by the grid, and all before it are. -/
  | outside {g : Grid} {events : List Event} {e : Event} : Grid.ofYear? year = some g →
      List.Forall₂ (fun entry event => Event.ofEntry zone entry = .ok event) entries events →
      IsFirst (fun e => ¬ g.Shows e) events e →
      Outcome name year zone entries
        (.error (.layout (.outsideGrid e.title (Layout.blamed g e))))
  /-- All entries are events that the grid shows. -/
  | shown {g : Grid} {events : List Event} : Grid.ofYear? year = some g →
      List.Forall₂ (fun entry event => Event.ofEntry zone entry = .ok event) entries events →
      (∀ e ∈ events, g.Shows e) →
      Outcome name year zone entries
        (.ok ⟨Markup.escape name, (Layout.drawn g events).html⟩)

variable {name : String} {year : Int} {zone : Offset} {entries : List Entry}
  {r : Except PictureError Picture}

theorem Outcome.eq (h : Outcome name year zone entries r) :
    ofEntries name year zone entries = r := by
  cases h with
  | noGrid hg => simp only [ofEntries, Layout.ofEntries, hg]; rfl
  | unread hg hfirst herror =>
    have hread : Event.ofEntries zone entries = .error _ :=
      mapM_eq_error_iff.mpr ⟨_, hfirst, herror⟩
    simp only [ofEntries, Layout.ofEntries, hg, hread]
    rfl
  | outside hg hread hfirst =>
    have hread : Event.ofEntries zone entries = .ok _ := mapM_eq_ok_iff.mpr hread
    simp only [ofEntries, Layout.ofEntries, hg, hread,
      Layout.ofEvents_eq_error_iff.mpr ⟨_, hfirst, rfl⟩]
    rfl
  | shown hg hread hshows =>
    exact ofEntries_eq_ok_iff.mpr ⟨_, _, _, hg, mapM_eq_ok_iff.mpr hread,
      Layout.ofEvents_eq_ok_iff.mpr ⟨hshows, rfl⟩, rfl⟩

theorem exists_outcome (name : String) (year : Int) (zone : Offset) (entries : List Entry) :
    ∃ r, Outcome name year zone entries r := by
  cases hg : Grid.ofYear? year with
  | none => exact ⟨_, .noGrid hg⟩
  | some g =>
    cases hread : Event.ofEntries zone entries with
    | error error =>
      obtain ⟨entry, hfirst, herror⟩ := mapM_eq_error_iff.mp hread
      exact ⟨_, .unread hg hfirst herror⟩
    | ok events =>
      have hread := mapM_eq_ok_iff.mp hread
      cases hl : Layout.ofEvents g events with
      | error error =>
        obtain ⟨e, hfirst, -⟩ := Layout.ofEvents_eq_error_iff.mp hl
        exact ⟨_, .outside hg hread hfirst⟩
      | ok l => exact ⟨_, .shown hg hread (Layout.ofEvents_eq_ok_iff.mp hl).1⟩

/-- A year of entries has just one outcome: it is drawn, or the first fault is reported, where an
entry whose local time leaves the calendar counts as one that is no event. Once the check of both
ends of every event has passed, nothing else can fail. -/
theorem ofEntries_eq_iff_outcome :
    (∀ name year zone entries r,
      ofEntries name year zone entries = r ↔ Outcome name year zone entries r) ∧
    ∀ g events, events.forM (Layout.checkEvent g) = .ok () → Layout.Placeable g events := by
  refine ⟨?_, fun g events h => Layout.placeable_of_check h⟩
  intro name year zone entries r
  constructor
  · rintro rfl
    obtain ⟨r, hr⟩ := exists_outcome name year zone entries
    rwa [hr.eq]
  · exact Outcome.eq

/-- An entry of another year, and one with a date and a time. -/
def sampleFaults : List Entry :=
  [{ title := "Fair", startAt := "2030-05-04", endAt := "2030-05-06" },
    { title := "Talk", startAt := "2025-03-10", endAt := "2025-03-10T11:00" }]

/-- The entry that is no event is reported, though another before it lies outside the grid; and the
plan of March passes the check. -/
theorem ofEntries_eq_iff_outcome_sample :
    ofEntries "Plans" 2025 .utc sampleFaults =
        .error (.event (.mixedEnds "Talk" "2025-03-10" "2025-03-10T11:00")) ∧
      ∃ g, Sample.plan.forM (Layout.checkEvent g) = .ok () ∧ Layout.Placeable g Sample.plan := by
  refine ⟨?_, ?_⟩
  · refine (ofEntries_eq_iff_outcome.1 ..).mpr (.unread rfl ⟨_ :: [], [], rfl, ⟨_, rfl⟩, ?_⟩ rfl)
    intro entry hentry
    cases List.mem_singleton.mp hentry
    rintro ⟨error, herror⟩
    cases herror
  · obtain ⟨g, l, -, hl, -⟩ := Sample.exists_layout
    have hcheck : Sample.plan.forM (Layout.checkEvent g) = .ok () :=
      forM_eq_ok_iff.mpr fun e he =>
        Layout.checkEvent_eq_ok_iff.mpr ((Layout.ofEvents_eq_ok_iff.mp hl).1 e he)
    exact ⟨g, hcheck, ofEntries_eq_iff_outcome.2 g _ hcheck⟩

end Picture

end WallCalendar
