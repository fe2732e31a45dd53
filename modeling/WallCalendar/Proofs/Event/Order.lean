import WallCalendar.Event.Basic

/-!
The order of events is a total order.

Every key of `Event.compare` is compared by a lawful order, so the whole comparison is transitive
and oriented. The keys together name an event completely: only equal events compare as equal. A list
of events therefore has one sorted form, whatever order it was given in, and along it the first days
never go back.
-/

namespace WallCalendar

open Std

/-- Sorting by a comparison gives a list in its order. -/
theorem pairwise_mergeSort_isLE {α : Type} (cmp : α → α → Ordering) [TransCmp cmp] (xs : List α) :
    (xs.mergeSort fun a b => (cmp a b).isLE).Pairwise fun a b => (cmp a b).isLE = true := by
  refine List.pairwise_mergeSort (fun _ _ _ => TransCmp.isLE_trans) ?_ xs
  intro a b
  have hswap : cmp a b = (cmp b a).swap := OrientedCmp.eq_swap
  rw [hswap]
  cases cmp b a <;> rfl

/-! ### Dates and times -/

theorem Date.eq_of_number {a b : Date} (h : a.number = b.number) : a = b := by
  cases a; cases b; cases h; rfl

theorem Date.le_iff {a b : Date} : a ≤ b ↔ a.number ≤ b.number := Iff.rfl

theorem Date.lt_iff {a b : Date} : a < b ↔ a.number < b.number := Iff.rfl

instance : TransOrd Date := inferInstanceAs (TransCmp (compareOn Date.number))

instance : LawfulEqOrd Date where
  eq_of_compare h := Date.eq_of_number (LawfulEqOrd.eq_of_compare h)

instance : TransOrd TimeOfDay :=
  inferInstanceAs (TransCmp (compareLex (compareOn TimeOfDay.second) (compareOn TimeOfDay.nanos)))

instance : LawfulEqOrd TimeOfDay where
  eq_of_compare {a b} h := by
    obtain ⟨hs, hn⟩ := Ordering.then_eq_eq.mp (show TimeOfDay.compare a b = .eq from h)
    have hs := LawfulEqOrd.eq_of_compare hs
    have hn := LawfulEqOrd.eq_of_compare hn
    cases a; cases b; cases hs; cases hn; rfl

instance : TransOrd Moment :=
  inferInstanceAs (TransCmp (compareLex (compareOn Moment.date) (compareOn Moment.time)))

instance : LawfulEqOrd Moment where
  eq_of_compare {a b} h := by
    obtain ⟨hd, ht⟩ := Ordering.then_eq_eq.mp (show Moment.compare a b = .eq from h)
    cases a; cases b
    cases LawfulEqOrd.eq_of_compare hd
    cases LawfulEqOrd.eq_of_compare ht
    rfl

/-- Earlier moments have no later dates. -/
theorem Moment.date_le_of_compare {a b : Moment} (h : (Ord.compare a b).isLE) :
    a.date ≤ b.date := by
  have hd : (Ord.compare a.date b.date).isLE := Ordering.isLE_left_of_isLE_then h
  exact Int.isLE_compare.mp hd

/-! ### Events -/

theorem Span.date_startMoment (s : Span) : s.startMoment.date = s.startDate := by
  cases s <;> rfl

/-- A span is known by its two moments and its kind. -/
theorem Span.eq_of_keys {s t : Span} (hstart : s.startMoment = t.startMoment)
    (hstop : s.stopMoment = t.stopMoment) (hrank : s.rank = t.rank) : s = t := by
  cases s <;> cases t <;>
    simp_all [startMoment, stopMoment, rank, isAllDay, Moment.ofDate]

/-- Two spans are of one kind and have the same ends. -/
def Span.SameEnds : Span → Span → Prop
  | days start stop, days start' stop' => start = start' ∧ stop = stop'
  | moments start stop, moments start' stop' => start = start' ∧ stop = stop'
  | _, _ => False

theorem Span.sameEnds_iff {s t : Span} : s.SameEnds t ↔ s = t := by
  cases s <;> cases t <;> simp [SameEnds]

namespace Event

/-- Two events are of one kind, have the same ends and say the same about themselves. -/
structure Identical (a b : Event) : Prop where
  ends : a.span.SameEnds b.span
  title : a.details.title = b.details.title
  description : a.details.description = b.details.description
  url : a.details.url = b.details.url
  imageUrl : a.details.imageUrl = b.details.imageUrl
  categories : a.details.categories = b.details.categories

theorem identical_iff {a b : Event} : Identical a b ↔ a = b := by
  constructor
  · rintro ⟨hends, htitle, hdescription, hurl, himage, hcategories⟩
    obtain ⟨⟨title, description, url, image, categories⟩, span⟩ := a
    obtain ⟨⟨title', description', url', image', categories'⟩, span'⟩ := b
    cases Span.sameEnds_iff.mp hends
    cases htitle; cases hdescription; cases hurl; cases himage; cases hcategories
    rfl
  · rintro rfl
    exact ⟨Span.sameEnds_iff.mpr rfl, rfl, rfl, rfl, rfl, rfl⟩

instance : TransCmp compare :=
  inferInstanceAs <| TransCmp <|
    compareLex (compareOn fun e : Event => e.span.startMoment) <|
    compareLex (fun a b : Event => compareOn (fun e : Event => e.span.stopMoment) b a) <|
    compareLex (compareOn fun e : Event => e.details.title) <|
    compareLex (compareOn fun e : Event => e.span.rank) <|
    compareLex (compareOn fun e : Event => e.details.description) <|
    compareLex (compareOn fun e : Event => e.details.url) <|
    compareLex (compareOn fun e : Event => e.details.imageUrl) <|
    compareOn fun e : Event => e.details.categories

instance : TransOrd Event := inferInstanceAs (TransCmp compare)

/-- Only equal events compare as equal. -/
theorem eq_of_compare {a b : Event} (h : compare a b = .eq) : a = b := by
  simp only [compare, Ordering.then_eq_eq] at h
  obtain ⟨hstart, hstop, htitle, hrank, hdescription, hurl, himage, hcategories⟩ := h
  have hspan : a.span = b.span :=
    Span.eq_of_keys (LawfulEqOrd.eq_of_compare hstart) (LawfulEqOrd.eq_of_compare hstop).symm
      (LawfulEqOrd.eq_of_compare hrank)
  exact identical_iff.mp ⟨Span.sameEnds_iff.mpr hspan, LawfulEqOrd.eq_of_compare htitle,
    LawfulEqOrd.eq_of_compare hdescription, LawfulEqOrd.eq_of_compare hurl,
    LawfulEqOrd.eq_of_compare himage, LawfulEqOrd.eq_of_compare hcategories⟩

instance : LawfulEqCmp compare where
  eq_of_compare := eq_of_compare

instance : LawfulEqOrd Event := inferInstanceAs (LawfulEqCmp compare)

/-- An event that may stand first starts on no later day. -/
theorem startDate_le_of_before {a b : Event} (h : before a b = true) :
    a.startDate ≤ b.startDate := by
  have hm : a.span.startMoment.date ≤ b.span.startMoment.date :=
    Moment.date_le_of_compare (Ordering.isLE_left_of_isLE_then h)
  rwa [Span.date_startMoment, Span.date_startMoment] at hm

theorem before_antisymm {a b : Event} (hab : before a b = true) (hba : before b a = true) :
    a = b :=
  eq_of_compare (OrientedCmp.isLE_antisymm hab hba)

theorem sort_perm (events : List Event) : (sort events).Perm events :=
  List.mergeSort_perm events before

theorem pairwise_sort (events : List Event) : (sort events).Pairwise (before · ·) :=
  pairwise_mergeSort_isLE compare events

theorem before_iff {a b : Event} : before a b = true ↔ compare a b ≠ .gt :=
  Ordering.isLE_iff_ne_gt

theorem compare_eq_iff {a b : Event} : compare a b = .eq ↔ Identical a b := by
  rw [identical_iff]
  exact LawfulEqCmp.compare_eq_iff_eq

/-- Three events that compare alike in turn compare alike throughout. -/
theorem compare_trans {a b c : Event} {o : Ordering} (hab : compare a b = o)
    (hbc : compare b c = o) : compare a c = o := by
  cases o with
  | lt => exact TransCmp.lt_trans hab hbc
  | eq => exact TransCmp.eq_trans hab hbc
  | gt => exact TransCmp.gt_trans hab hbc

/-- A list of events has one sorted form, whatever order it was given in. -/
theorem sort_eq_of_perm {xs ys : List Event} (h : xs.Perm ys) : sort xs = sort ys :=
  List.Perm.eq_of_pairwise (fun _ _ _ _ => before_antisymm) (pairwise_sort xs) (pairwise_sort ys)
    ((sort_perm xs).trans (h.trans (sort_perm ys).symm))

/-- Events are totally ordered: comparing them the other way round gives the reverse, comparing is
transitive, and only identical events compare as equal. An event that comes no later in the order
starts on no later day. -/
theorem compare_total_order (a b c : Event) :
    compare a b = (compare b a).swap ∧
    (∀ o, compare a b = o → compare b c = o → compare a c = o) ∧
    (compare a b ≠ .gt → compare b c ≠ .gt → compare a c ≠ .gt) ∧
    (compare a b = .eq ↔ Identical a b) ∧
    (compare a b ≠ .gt → a.startDate ≤ b.startDate) := by
  refine ⟨OrientedCmp.eq_swap, fun _ => compare_trans, ?_, compare_eq_iff, ?_⟩
  · simp only [← before_iff]
    exact TransCmp.isLE_trans
  · rw [← before_iff]
    exact startDate_le_of_before

end Event

namespace Sample

/-- March 10, 2025. -/
def concertStart : Date := ⟨739320, by decide, by decide⟩

/-- March 12, 2025. -/
def concertStop : Date := ⟨739322, by decide, by decide⟩

/-- Two whole days. -/
def wholeDays : Span := .days concertStart concertStop

/-- The same two days from midnight to midnight. -/
def midnights : Span := .moments (.ofDate concertStart) (.ofDate concertStop)

/-- Concerts that take a span. -/
def concerts (span : Span) (categories : List String) : Event :=
  ⟨⟨"Concerts", none, none, none, categories⟩, span⟩

end Sample

/-- Whole days come before the same days from midnight to midnight, and those before the same with a
category. -/
theorem Event.compare_total_order_sample :
    compare (Sample.concerts Sample.wholeDays []) (Sample.concerts Sample.midnights []) = .lt ∧
    compare (Sample.concerts Sample.midnights []) (Sample.concerts Sample.midnights ["Jazz"]) =
      .lt ∧
    compare (Sample.concerts Sample.wholeDays []) (Sample.concerts Sample.midnights ["Jazz"]) =
      .lt ∧
    compare (Sample.concerts Sample.midnights []) (Sample.concerts Sample.wholeDays []) = .gt ∧
    ¬ Identical (Sample.concerts Sample.wholeDays []) (Sample.concerts Sample.midnights []) ∧
    (Sample.concerts Sample.wholeDays []).startDate ≤
      (Sample.concerts Sample.midnights []).startDate := by
  have hkind : compare (Sample.concerts Sample.wholeDays [])
      (Sample.concerts Sample.midnights []) = .lt := by
    have hstart : Sample.wholeDays.startMoment = Sample.midnights.startMoment := rfl
    have hstop : Sample.wholeDays.stopMoment = Sample.midnights.stopMoment := rfl
    have hrank : Ord.compare Sample.wholeDays.rank Sample.midnights.rank = .lt := rfl
    simp only [compare, Sample.concerts, hstart, hstop, hrank, ReflOrd.compare_self,
      Ordering.eq_then, Ordering.lt_then]
  have hcategory : compare (Sample.concerts Sample.midnights [])
      (Sample.concerts Sample.midnights ["Jazz"]) = .lt := by
    simp only [compare, Sample.concerts, ReflOrd.compare_self, Ordering.eq_then,
      List.compare_nil_cons]
  obtain ⟨hswap, htrans, -, hequal, hdays⟩ := compare_total_order
    (Sample.concerts Sample.wholeDays []) (Sample.concerts Sample.midnights [])
    (Sample.concerts Sample.midnights ["Jazz"])
  refine ⟨hkind, hcategory, htrans _ hkind hcategory, ?_, ?_, hdays (by rw [hkind]; decide)⟩
  · exact Ordering.swap_eq_lt.mp (hswap.symm.trans hkind)
  · rw [← hequal, hkind]
    decide

end WallCalendar
