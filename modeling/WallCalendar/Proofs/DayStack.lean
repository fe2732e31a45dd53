import Mathlib.Data.List.TakeWhile
import WallCalendar.DayStack
import WallCalendar.Proofs.Event.Order

/-!
What a day stack hands out.

When the waiting events are in order and the days visited ascend, the events handed out are the
longest run at the head whose days are all visited: each day gets those of them that start on it,
in order, and what is left begins with the first event whose day never comes.
-/

namespace WallCalendar.DayStack

/-- Events whose first days never go back. -/
def Ordered (events : List Event) : Prop := events.Pairwise fun a b => a.startDate ≤ b.startDate

theorem ordered_ofEvents (events : List Event) : Ordered (ofEvents events).waiting :=
  (Event.pairwise_sort events).imp Event.startDate_le_of_before

/-- The events at the head whose days are all among those visited. -/
def reached (days : List Date) (waiting : List Event) : List Event :=
  waiting.takeWhile (·.startDate ∈ days)

/-- What is left when the events at the head have been handed out. -/
def blocked (days : List Date) (waiting : List Event) : List Event :=
  waiting.dropWhile (·.startDate ∈ days)

variable {day : Date} {days : List Date} {waiting : List Event}

theorem scan_congr {p q : Event → Bool} : ∀ {events : List Event}, (∀ e ∈ events, p e = q e) →
    events.takeWhile p = events.takeWhile q ∧ events.dropWhile p = events.dropWhile q
  | [], _ => ⟨rfl, rfl⟩
  | e :: events, h => by
      obtain ⟨ht, hd⟩ := scan_congr fun e' he' => h e' (List.mem_cons_of_mem _ he')
      rw [List.takeWhile_cons, List.takeWhile_cons, List.dropWhile_cons, List.dropWhile_cons,
        h e (List.mem_cons_self ..), ht, hd]
      exact ⟨rfl, rfl⟩

/-- Once the events of a day are gone from the head, that day no longer matters. -/
theorem reached_cons_of_head {e : Event} {rest : List Event} (hw : Ordered (e :: rest))
    (hne : e.startDate ≠ day) (hdays : ∀ d ∈ days, day < d) :
    reached (day :: days) (e :: rest) = reached days (e :: rest) ∧
      blocked (day :: days) (e :: rest) = blocked days (e :: rest) := by
  simp only [Date.lt_iff] at hdays
  by_cases hlt : e.startDate.number < day.number
  · -- the head is too early for any day to come
    have hnot : e.startDate ∉ days := by
      intro hmem
      have := hdays _ hmem
      omega
    simp [reached, blocked, hne, hnot]
  · refine scan_congr fun e' he' => ?_
    have hle : e.startDate.number ≤ e'.startDate.number := by
      rcases List.mem_cons.mp he' with rfl | he'
      · exact Int.le_refl _
      · exact (List.pairwise_cons.mp hw).1 e' he'
    have hne' : e'.startDate ≠ day := by
      rintro rfl
      exact hne (Date.eq_of_number (by omega))
    simp [hne']

/-- The events of the first day go first. -/
theorem reached_cons (hw : Ordered waiting) (hdays : ∀ d ∈ days, day < d) :
    reached (day :: days) waiting = waiting.takeWhile (·.startDate = day) ++
        reached days (waiting.dropWhile (·.startDate = day)) ∧
      blocked (day :: days) waiting = blocked days (waiting.dropWhile (·.startDate = day)) := by
  have htaken : ∀ e ∈ waiting.takeWhile (·.startDate = day), e.startDate = day := fun e he => by
    simpa using List.mem_takeWhile_imp he
  have hall : ∀ e ∈ waiting.takeWhile (·.startDate = day),
      decide (e.startDate ∈ day :: days) = true := fun e he => by simp [htaken e he]
  have hrest : Ordered (waiting.dropWhile (·.startDate = day)) :=
    hw.sublist (List.dropWhile_sublist _)
  have hsplit : waiting = waiting.takeWhile (·.startDate = day) ++
      waiting.dropWhile (·.startDate = day) := List.takeWhile_append_dropWhile.symm
  have hhead := List.head?_dropWhile_not (·.startDate = day) waiting
  rw [reached, blocked, reached, blocked]
  conv => enter [1, 1]; rw [hsplit, List.takeWhile_append_of_pos hall]
  conv => enter [2, 1]; rw [hsplit, List.dropWhile_append_of_pos hall]
  cases hr : waiting.dropWhile (·.startDate = day) with
  | nil => exact ⟨rfl, rfl⟩
  | cons e rest =>
    rw [hr] at hhead hrest
    obtain ⟨hreached, hblocked⟩ := reached_cons_of_head hrest (by simpa using hhead) hdays
    exact ⟨congrArg _ hreached, hblocked⟩

/-- Visiting days one after the other hands out the events that can be reached. -/
theorem popAll_eq : ∀ {days : List Date} {waiting : List Event}, days.Pairwise (· < ·) →
    Ordered waiting → popAll ⟨waiting⟩ days =
      (days.map fun d => (reached days waiting).filter (·.startDate = d),
        ⟨blocked days waiting⟩)
  | [], waiting, _, _ => by
      cases waiting <;> simp [popAll, blocked]
  | day :: days, waiting, hasc, hw => by
      obtain ⟨hlater, hasc⟩ := List.pairwise_cons.mp hasc
      obtain ⟨hreached, hblocked⟩ := reached_cons hw hlater
      have htaken : ∀ e ∈ waiting.takeWhile (·.startDate = day), e.startDate = day :=
        fun e he => by simpa using List.mem_takeWhile_imp he
      have hvisited : ∀ e ∈ reached days (waiting.dropWhile (·.startDate = day)),
          e.startDate ∈ days :=
        fun e he => by simpa using List.mem_takeWhile_imp he
      have hne : ∀ d ∈ days, d ≠ day := by
        rintro d hd rfl
        exact Int.lt_irrefl _ (hlater d hd)
      rw [popAll, pop, hreached, hblocked, List.map_cons, List.filter_append]
      simp only [popAll_eq hasc (hw.sublist (List.dropWhile_sublist _))]
      refine Prod.ext (congrArg₂ _ ?_ (List.map_congr_left fun d hd => ?_)) rfl
      · rw [List.filter_eq_self.mpr fun e he => by simp [htaken e he],
          List.filter_eq_nil_iff.mpr fun e he => by simpa using hne _ (hvisited e he),
          List.append_nil]
      · have hnone : (waiting.takeWhile (·.startDate = day)).filter (·.startDate = d) = [] :=
          List.filter_eq_nil_iff.mpr fun e he => by simpa [htaken e he] using (hne d hd).symm
        rw [List.filter_append, hnone, List.nil_append]

/-- If every day comes, nothing is left and each day has all its events. -/
theorem popAll_of_forall_mem (hasc : days.Pairwise (· < ·)) (hw : Ordered waiting)
    (hmem : ∀ e ∈ waiting, e.startDate ∈ days) :
    popAll ⟨waiting⟩ days = (days.map fun d => waiting.filter (·.startDate = d), ⟨[]⟩) := by
  have hall : ∀ e ∈ waiting, decide (e.startDate ∈ days) = true := fun e he => by
    simpa using hmem e he
  rw [popAll_eq hasc hw, reached, blocked, List.takeWhile_eq_self_iff.mpr hall,
    List.dropWhile_eq_nil_iff.mpr hall]

end WallCalendar.DayStack
