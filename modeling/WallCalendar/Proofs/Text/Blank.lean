import Mathlib.Data.List.DropRight
import WallCalendar.Text.Basic

/-!
Trimming.

What is left of a text after trimming neither starts nor ends with a blank, so trimming it again
changes nothing. A text is blank just when nothing is left of it.
-/

namespace WallCalendar.Text

/-- Nothing is skipped where no blank stands in front. -/
theorem skipBlanks_cons_of_not {c : Char} (h : isBlank c = false) (cs : List Char) :
    skipBlanks (c :: cs) = c :: cs := by
  rw [skipBlanks, List.dropWhile_cons, if_neg (by simp [h])]

/-- Blanks in front are skipped. -/
theorem skipBlanks_append {blanks : List Char} (h : ∀ c ∈ blanks, isBlank c = true)
    (cs : List Char) : skipBlanks (blanks ++ cs) = skipBlanks cs :=
  List.dropWhile_append_of_pos h

theorem skipBlanks_skipBlanks (cs : List Char) : skipBlanks (skipBlanks cs) = skipBlanks cs :=
  List.dropWhile_idempotent ..

/-- What is left after trimming starts where the blanks in front end. -/
theorem trimChars_prefix (cs : List Char) : trimChars cs <+: skipBlanks cs := by
  rw [trimChars, ← List.reverse_suffix, List.reverse_reverse]
  exact List.dropWhile_suffix _

/-- What is left after trimming does not start with a blank. -/
theorem skipBlanks_trimChars (cs : List Char) : skipBlanks (trimChars cs) = trimChars cs := by
  cases h : trimChars cs with
  | nil => rfl
  | cons c rest =>
    obtain ⟨after, hafter⟩ := h ▸ trimChars_prefix cs
    have hne : skipBlanks cs ≠ [] := by rw [← hafter]; simp
    have hhead : isBlank ((skipBlanks cs).head hne) = false := List.head_dropWhile_not ..
    simp only [← hafter, List.cons_append, List.head_cons] at hhead
    exact skipBlanks_cons_of_not hhead rest

theorem trimChars_trimChars (cs : List Char) : trimChars (trimChars cs) = trimChars cs := by
  rw [trimChars, skipBlanks_trimChars, trimChars, List.reverse_reverse, skipBlanks_skipBlanks]

@[simp] theorem trim_trim (s : String) : trim (trim s) = trim s := by
  rw [trim, trim, String.toList_ofList, trimChars_trimChars]

/-- What is left where blanks end starts with none. -/
theorem isBlank_of_head?_skipBlanks {cs : List Char} {c : Char}
    (h : c ∈ (skipBlanks cs).head?) : isBlank c = false := by
  have hnot := List.head?_dropWhile_not isBlank cs
  rw [skipBlanks, Option.mem_def] at h
  rw [h] at hnot
  exact hnot

/-- `t` is `s` without the blanks around it. -/
def IsTrimOf (t s : String) : Prop :=
  ∃ before after, s.toList = before ++ t.toList ++ after ∧
    (∀ c ∈ before ++ after, isBlank c = true) ∧
    (∀ c ∈ t.toList.head?, isBlank c = false) ∧ ∀ c ∈ t.toList.getLast?, isBlank c = false

theorem takeWhile_append_skipBlanks (cs : List Char) :
    cs.takeWhile isBlank ++ skipBlanks cs = cs := List.takeWhile_append_dropWhile

theorem isTrimOf_trim (s : String) : IsTrimOf (trim s) s := by
  have hback : trimChars s.toList ++ ((skipBlanks s.toList).reverse.takeWhile isBlank).reverse =
      skipBlanks s.toList := by
    rw [trimChars, ← List.reverse_append, takeWhile_append_skipBlanks, List.reverse_reverse]
  refine ⟨s.toList.takeWhile isBlank, ((skipBlanks s.toList).reverse.takeWhile isBlank).reverse,
    ?_, ?_, ?_, ?_⟩
  · rw [trim, String.toList_ofList, List.append_assoc, hback, takeWhile_append_skipBlanks]
  · intro c hc
    rcases List.mem_append.mp hc with hc | hc
    · exact List.mem_takeWhile_imp hc
    · exact List.mem_takeWhile_imp (List.mem_reverse.mp hc)
  · intro c hc
    rw [trim, String.toList_ofList, ← skipBlanks_trimChars] at hc
    exact isBlank_of_head?_skipBlanks hc
  · intro c hc
    rw [trim, String.toList_ofList, trimChars, List.getLast?_reverse] at hc
    exact isBlank_of_head?_skipBlanks hc

theorem isBlankText_iff {s : String} : isBlankText s = true ↔ ∀ c ∈ s.toList, isBlank c = true :=
  List.all_eq_true

/-- Nothing is left of a text just when it is blank. -/
theorem trim_eq_empty_iff {s : String} : trim s = "" ↔ isBlankText s = true := by
  rw [isBlankText_iff, trim, String.ofList_eq_empty_iff, trimChars, List.reverse_eq_nil_iff,
    skipBlanks, List.dropWhile_eq_nil_iff]
  constructor
  · intro h c hc
    by_cases hblank : isBlank c = true
    · exact hblank
    · -- a character that is no blank would be left over
      rw [← takeWhile_append_skipBlanks s.toList, List.mem_append] at hc
      rcases hc with hc | hc
      · exact List.mem_takeWhile_imp hc
      · exact h c (List.mem_reverse.mpr hc)
  · intro h c hc
    exact h c ((List.dropWhile_suffix _).subset (List.mem_reverse.mp hc))

/-- A text that is kept because it is not blank is kept again. -/
@[simp] theorem bind_nonBlank_nonBlank (s : Option String) :
    (s.bind nonBlank).bind nonBlank = s.bind nonBlank := by
  cases s with
  | none => rfl
  | some s =>
    simp only [Option.bind_some, nonBlank]
    split
    · rfl
    · next h => rw [Option.bind_some, nonBlank, if_neg h]

end WallCalendar.Text
