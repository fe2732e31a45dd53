import WallCalendar.Proofs.Agenda.Document

/-!
Merging in stages.

Names are joined with plus signs, and a joined name is blank only if there was nothing to join. So
the names of groups, joined, are the names of all their members, joined, and agendas may be merged
in groups first. Agendas in normal form are merged to one in normal form.
-/

namespace WallCalendar

/-! ### Names -/

/-- A join of names that are not blank is blank only if there are none. -/
theorem Text.isBlankText_intercalate {sep : String} {names : List String}
    (h : ∀ s ∈ names, isBlankText s = false) :
    isBlankText (sep.intercalate names) = names.isEmpty := by
  cases names with
  | nil => simp [isBlankText]
  | cons s names =>
    have hs := h s (List.mem_cons_self ..)
    cases names with
    | nil => rwa [String.intercalate_singleton]
    | cons t names =>
      rw [String.intercalate_cons_cons]
      simp only [isBlankText, String.toList_append, List.all_append] at hs ⊢
      simp [hs]

/-- Groups that are joined one by one and then together are joined as a whole, where groups without
members are passed over. -/
theorem Text.intercalate_flatten (sep : String) (groups : List (List String)) :
    sep.intercalate ((groups.filter (!·.isEmpty)).map sep.intercalate) =
      sep.intercalate groups.flatten := by
  induction groups with
  | nil => rfl
  | cons g groups ih =>
    rw [List.flatten_cons]
    by_cases hg : g = []
    · simpa [hg] using ih
    rw [List.filter_cons_of_pos (by simpa using hg), List.map_cons]
    by_cases hrest : groups.flatten = []
    · -- nothing follows the first group
      have hnone : groups.filter (!·.isEmpty) = [] := by
        simpa [List.filter_eq_nil_iff] using hrest
      rw [hnone, hrest, List.append_nil, List.map_nil, String.intercalate_singleton]
    · have hsome : (groups.filter (!·.isEmpty)).map sep.intercalate ≠ [] := by
        simpa [List.filter_eq_nil_iff] using hrest
      rw [String.intercalate_cons_of_ne_nil hsome, ih,
        String.intercalate_append_of_ne_nil hg hrest]

namespace Agenda

/-- The names of agendas that are not blank. -/
def namesOf (agendas : List Agenda) : List String :=
  (agendas.map Agenda.name).filter (!Text.isBlankText ·)

theorem name_merge (agendas : List Agenda) :
    (merge none agendas).name = " + ".intercalate (namesOf agendas) := rfl

theorem isBlankText_name_merge (agendas : List Agenda) :
    Text.isBlankText (merge none agendas).name = (namesOf agendas).isEmpty := by
  refine Text.isBlankText_intercalate fun s hs => ?_
  simpa using (List.mem_filter.mp hs).2

/-- Of groups that are merged, those keep a name that have one among their members. -/
theorem namesOf_map_merge (groups : List (List Agenda)) :
    namesOf (groups.map (merge none)) =
      ((groups.map namesOf).filter (!·.isEmpty)).map (" + ".intercalate) := by
  rw [namesOf, List.map_map, List.filter_map, List.filter_map, List.map_map]
  simp only [Function.comp_def, isBlankText_name_merge]
  rfl

theorem namesOf_flatten (groups : List (List Agenda)) :
    namesOf groups.flatten = (groups.map namesOf).flatten := by
  rw [namesOf, List.map_flatten, List.filter_flatten, List.map_map]
  rfl

/-- To merge groups and then what they give is to merge all at once. -/
theorem merge_map_merge (groups : List (List Agenda)) :
    merge none (groups.map (merge none)) = merge none groups.flatten := by
  have hname : (merge none (groups.map (merge none))).name = (merge none groups.flatten).name := by
    rw [name_merge, name_merge, namesOf_map_merge, Text.intercalate_flatten, namesOf_flatten]
  have hentries : (merge none (groups.map (merge none))).entries =
      (merge none groups.flatten).entries := by
    simp only [merge, List.flatMap_def, List.map_map, List.map_flatten, List.flatten_flatten]
    rfl
  exact congrArg₂ Agenda.mk hname hentries

/-- What is merged of agendas in normal form is in normal form. -/
theorem normal_merge {agendas : List Agenda} (h : ∀ a ∈ agendas, a.normal = a) :
    (merge none agendas).normal = merge none agendas := by
  have hentries : (agendas.flatMap Agenda.entries).map Entry.normal =
      agendas.flatMap Agenda.entries := by
    rw [List.map_flatMap]
    exact List.flatMap_congr fun a ha => congrArg Agenda.entries (h a ha)
  exact congrArg₂ Agenda.mk rfl hentries

end Agenda

end WallCalendar
