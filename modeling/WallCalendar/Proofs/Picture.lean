import Mathlib.Data.List.Perm.Basic
import WallCalendar.Picture
import WallCalendar.Proofs.Layout.Order

/-!
Pictures do not depend on the order of their entries.

Entries are read one by one, so entries in another order are events in another order, and those have
the same layout.
-/

namespace WallCalendar

/-- Rearranged entries are read as rearranged events. -/
theorem Event.perm_of_ofEntries {zone : Offset} {entries entries' : List Entry}
    {events : List Event} (h : Event.ofEntries zone entries = .ok events)
    (hperm : entries.Perm entries') :
    ∃ events', Event.ofEntries zone entries' = .ok events' ∧ events.Perm events' := by
  obtain ⟨events', hread, hperm'⟩ := List.perm_comp_forall₂ hperm.symm (mapM_eq_ok_iff.mp h)
  exact ⟨events', mapM_eq_ok_iff.mpr hread, hperm'.symm⟩

namespace Picture

variable {name : String} {year : Int} {zone : Offset} {entries entries' : List Entry}
  {picture : Picture}

theorem ofEntries_eq_ok_iff : ofEntries name year zone entries = .ok picture ↔
    ∃ g events l, Grid.ofYear? year = some g ∧ Event.ofEntries zone entries = .ok events ∧
      Layout.ofEvents g events = .ok l ∧ picture = ⟨Markup.escape name, l.html⟩ := by
  rw [ofEntries, Layout.ofEntries]
  cases Grid.ofYear? year with
  | none => simp [Except.map]
  | some g =>
    cases Event.ofEntries zone entries with
    | error e => simp [Except.map]
    | ok events =>
      cases hl : Layout.ofEvents g events with
      | error e => simp [Except.map, Except.mapError, hl]
      | ok l => simp [Except.map, Except.mapError, hl, eq_comm]

/-- Rearranged entries give the same picture. -/
theorem ofEntries_of_perm (h : ofEntries name year zone entries = .ok picture)
    (hperm : entries.Perm entries') : ofEntries name year zone entries' = .ok picture := by
  obtain ⟨g, events, l, hg, hevents, hl, hpicture⟩ := ofEntries_eq_ok_iff.mp h
  obtain ⟨events', hevents', hperm'⟩ := Event.perm_of_ofEntries hevents hperm
  exact ofEntries_eq_ok_iff.mpr
    ⟨g, events', l, hg, hevents', Layout.ofEvents_of_perm hl hperm', hpicture⟩

/-- Two trips that differ in their descriptions only, and a talk. -/
def sampleEntries : List Entry :=
  [{ title := "Trip", startAt := "2025-03-08", endAt := "2025-03-18" },
    { title := "Talk", startAt := "2025-03-10T10:00:00Z", endAt := "2025-03-10T11:00:00Z" },
    { title := "Trip", startAt := "2025-03-08", endAt := "2025-03-18",
      description := some "By train" }]

theorem ofEntries_reverse_sample :
    ∃ picture, ofEntries "Plans" 2025 .utc sampleEntries = .ok picture ∧
      ofEntries "Plans" 2025 .utc sampleEntries.reverse = .ok picture := by
  have hpicture : ∃ picture, ofEntries "Plans" 2025 .utc sampleEntries = .ok picture :=
    ⟨_, ofEntries_eq_ok_iff.mpr ⟨_, _, _, rfl, rfl,
      Layout.ofEvents_eq_ok_iff.mpr ⟨by decide, rfl⟩, rfl⟩⟩
  obtain ⟨picture, h⟩ := hpicture
  exact ⟨picture, h, ofEntries_of_perm h (List.reverse_perm _).symm⟩

end Picture

end WallCalendar
