import WallCalendar.Proofs.Layout.Basic

/-!
What visiting a stack day by day leaves.

No visit loses an event or hands one out twice: what is taken, followed by what still waits, is what
waited before. When the days ascend, the events taken are the longest run at the head of the sorted
events whose days are all visited. One event whose day is not visited holds up all behind it, and it
is the one that is reported at the end.
-/

namespace WallCalendar

namespace Event

/-- There is only one way to put events in order. -/
theorem eq_sort {events sorted : List Event} (hperm : sorted.Perm events)
    (hsorted : sorted.Pairwise (before · ·)) : sorted = sort events :=
  List.Perm.eq_of_pairwise (fun _ _ _ _ => before_antisymm) hsorted (pairwise_sort events)
    (hperm.trans (sort_perm events).symm)

end Event

namespace DayStack

variable {days : List Date} {events sorted : List Event} {s : DayStack}

/-! ### Nothing is lost -/

/-- A visit takes events off the head. -/
theorem pop_append (s : DayStack) (day : Date) :
    (s.pop day).1 ++ (s.pop day).2.waiting = s.waiting :=
  List.takeWhile_append_dropWhile

/-- So does a series of visits. -/
theorem popAll_append (s : DayStack) (days : List Date) :
    (s.popAll days).1.flatten ++ (s.popAll days).2.waiting = s.waiting := by
  induction days generalizing s with
  | nil => rfl
  | cons day days ih =>
    rw [popAll, List.flatten_cons, List.append_assoc, ih, pop_append]

/-! ### The run that is reached -/

/-- `run` is the longest run at the head of `sorted` whose events all start on one of `days`. -/
structure IsReached (days : List Date) (sorted run : List Event) : Prop where
  head : run <+: sorted
  visited : ∀ e ∈ run, e.startDate ∈ days
  longest : ∀ other, other <+: sorted → (∀ e ∈ other, e.startDate ∈ days) →
    other.length ≤ run.length

theorem isReached_reached (days : List Date) (sorted : List Event) :
    IsReached days sorted (reached days sorted) where
  head := List.takeWhile_prefix _
  visited e he := by simpa using List.mem_takeWhile_imp he
  longest := by
    rintro other ⟨rest, rfl⟩ hother
    have hall : ∀ e ∈ other, decide (e.startDate ∈ days) = true := by simpa using hother
    rw [reached, List.takeWhile_append_of_pos hall, List.length_append]
    exact Nat.le_add_right ..

/-- There is only one such run. -/
theorem IsReached.eq {run run' : List Event} (h : IsReached days sorted run)
    (h' : IsReached days sorted run') : run = run' := by
  have hlength := Nat.le_antisymm (h'.longest run h.head h.visited)
    (h.longest run' h'.head h'.visited)
  exact (List.prefix_of_prefix_length_le h.head h'.head hlength.le).eq_of_length hlength

theorem reached_append_blocked (days : List Date) (sorted : List Event) :
    reached days sorted ++ blocked days sorted = sorted :=
  List.takeWhile_append_dropWhile

/-! ### The report at the end -/

theorem finish_eq_ok_iff : s.finish = .ok () ↔ s.waiting = [] := by
  cases s with
  | mk waiting => cases waiting <;> simp [finish, leftover?]

theorem finish_eq_error_iff {error : LayoutError} : s.finish = .error error ↔
    ∃ e, s.waiting.head? = some e ∧ error = .outsideGrid e.title e.startDate := by
  cases s with
  | mk waiting => cases waiting <;> simp [finish, leftover?, eq_comm]

theorem blocked_eq_nil_iff : blocked days sorted = [] ↔ ∀ e ∈ sorted, e.startDate ∈ days := by
  simp [blocked, List.dropWhile_eq_nil_iff]

/-- What is held up begins with the first event whose day is not visited. -/
theorem head?_blocked_eq_some_iff {e : Event} :
    (blocked days sorted).head? = some e ↔ IsFirst (·.startDate ∉ days) sorted e := by
  rw [blocked, ← List.find?_not_eq_head?_dropWhile, List.find?_eq_some_iff_append]
  constructor
  · rintro ⟨he, front, back, heq, hfront⟩
    exact ⟨front, back, heq, by simpa using he, by simpa using hfront⟩
  · rintro ⟨front, back, heq, he, hfront⟩
    exact ⟨by simpa using he, front, back, heq, by simpa using hfront⟩

/-- Visiting days in ascending order takes the longest run of the sorted events that the days reach:
each day takes those of the run that start on it, the rest stays, and the first event whose day was
not visited, if there is one, is reported. -/
theorem popAll_drains {taken : List (List Event)} (hperm : sorted.Perm events)
    (hsorted : sorted.Pairwise (Event.before · ·)) (hasc : days.Pairwise (· < ·))
    (h : (ofEvents events).popAll days = (taken, s)) :
    ∃ run, IsReached days sorted run ∧ taken.flatten = run ∧
      taken = days.map (fun d => run.filter (·.startDate = d)) ∧
      s.remaining + run.length = events.length ∧
      (s.finish = .ok () ↔ ∀ e ∈ events, e.startDate ∈ days) ∧
      ∀ error, s.finish = .error error ↔
        ∃ e, IsFirst (·.startDate ∉ days) sorted e ∧
          error = .outsideGrid e.title e.startDate := by
  have hwaiting : (ofEvents events).waiting = sorted := (Event.eq_sort hperm hsorted).symm
  have hall := popAll_append (ofEvents events) days
  have hrun := popAll_eq hasc (ordered_ofEvents events)
  rw [hwaiting] at hall hrun
  rw [show (⟨sorted⟩ : DayStack) = ofEvents events by rw [← hwaiting], h] at hrun
  rw [h] at hall
  obtain ⟨htaken, hs⟩ := Prod.mk.inj hrun
  subst hs
  refine ⟨reached days sorted, isReached_reached days sorted, ?_, htaken, ?_, ?_, ?_⟩
  · refine List.append_cancel_right (hall.trans ?_)
    exact (reached_append_blocked days sorted).symm
  · rw [remaining, Nat.add_comm, ← List.length_append, reached_append_blocked, hperm.length_eq]
  · rw [finish_eq_ok_iff, blocked_eq_nil_iff]
    exact forall_congr' fun e => by rw [hperm.mem_iff]
  · intro error
    simp only [finish_eq_error_iff, head?_blocked_eq_some_iff]

end DayStack

/-- One whole day, the eleventh. -/
def Sample.outing : Event :=
  ⟨⟨"Outing", none, none, none, []⟩, .days (Sample.march 11) (Sample.march 12)⟩

/-- The eighth takes the trip. The talk of the tenth is not visited: it is reported, and it holds up
the outing of the eleventh, which is. -/
theorem DayStack.popAll_drains_sample :
    ∃ taken s, (ofEvents [Sample.outing, Sample.talk, Sample.trip]).popAll
        [Sample.march 8, Sample.march 9, Sample.march 11] = (taken, s) ∧
      taken = [[Sample.trip], [], []] ∧ s.remaining = 2 ∧
      s.finish = .error (.outsideGrid "Talk" (Sample.march 10)) := by
  have hperm : [Sample.trip, Sample.talk, Sample.outing].Perm
      [Sample.outing, Sample.talk, Sample.trip] := List.reverse_perm [_, _, _]
  have hsorted : [Sample.trip, Sample.talk, Sample.outing].Pairwise (Event.before · ·) := by decide
  have hasc : [Sample.march 8, Sample.march 9, Sample.march 11].Pairwise (· < ·) := by decide
  have hfirst : IsFirst (·.startDate ∉ [Sample.march 8, Sample.march 9, Sample.march 11])
      [Sample.trip, Sample.talk, Sample.outing] Sample.talk :=
    ⟨[Sample.trip], [Sample.outing], rfl, by decide, by decide⟩
  refine ⟨_, _, rfl, ?_⟩
  obtain ⟨run, hrun, -, htaken, hremaining, -, herror⟩ := popAll_drains hperm hsorted hasc rfl
  have htrip : run = [Sample.trip] := hrun.eq (isReached_reached _ _)
  subst htrip
  exact ⟨htaken, Nat.add_right_cancel hremaining, (herror _).mpr ⟨_, hfirst, rfl⟩⟩

end WallCalendar
