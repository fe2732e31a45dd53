import Mathlib.Data.List.Basic
import WallCalendar.Markup

/-!
Escaping, character by character.

Five replacements through the whole text come to the same as one that looks at each character once:
what a replacement puts in is left alone by those after it. So an escaped text is made of the
entities of its characters, and holds none of the characters that tags and values are told by: it is
plain, whatever it was before.
-/

namespace WallCalendar.Markup

/-- What a character is escaped as. -/
def entity (c : Char) : List Char := (entities.lookup c).elim [c] String.toList

/-- The characters that tags and attribute values are told by. -/
def isDelimiter (c : Char) : Bool := c ∈ ['<', '>', '\"', '\x27']

/-- Whether a text holds no delimiter, so that it can stand in content and in values as it is. -/
def isPlain (s : String) : Bool := s.toList.all (!isDelimiter ·)

theorem escapeChars_append (xs ys : List Char) :
    escapeChars (xs ++ ys) = escapeChars xs ++ escapeChars ys := by
  simp only [escapeChars, entities, List.foldl_cons, List.foldl_nil, replaceChar,
    List.flatMap_append]

/-- A character has an entity of its own or stands for itself. -/
theorem entity_eq_or (c : Char) :
    (∃ e ∈ entities, c = e.1 ∧ entity c = e.2.toList) ∨
      (∀ e ∈ entities, c ≠ e.1) ∧ entity c = [c] := by
  by_cases h : ∃ e ∈ entities, c = e.1
  · obtain ⟨e, he, rfl⟩ := h
    refine .inl ⟨e, he, rfl, ?_⟩
    simp only [entities, List.mem_cons, List.not_mem_nil, or_false] at he
    rcases he with rfl | rfl | rfl | rfl | rfl <;> rfl
  · have hne : ∀ e ∈ entities, c ≠ e.1 := fun e he heq => h ⟨e, he, heq⟩
    refine .inr ⟨hne, ?_⟩
    rw [entity, List.lookup_eq_none_iff.mpr fun e he => bne_iff_ne.mpr (hne e he)]
    rfl

/-- A character that nothing is put in the place of stays. -/
theorem foldl_replaceChar_singleton {c : Char} {es : List (Char × String)}
    (h : ∀ e ∈ es, c ≠ e.1) :
    es.foldl (fun cs e => replaceChar e.1 e.2.toList cs) [c] = [c] := by
  induction es with
  | nil => rfl
  | cons e es ih =>
    rw [List.forall_mem_cons] at h
    rw [List.foldl_cons, replaceChar, List.flatMap_singleton, if_neg h.1, ih h.2]

theorem escapeChars_singleton (c : Char) : escapeChars [c] = entity c := by
  rcases entity_eq_or c with ⟨e, he, rfl, -⟩ | ⟨hne, hself⟩
  · simp only [entities, List.mem_cons, List.not_mem_nil, or_false] at he
    rcases he with rfl | rfl | rfl | rfl | rfl <;> rfl
  · rw [hself]
    exact foldl_replaceChar_singleton hne

theorem escapeChars_cons (c : Char) (cs : List Char) :
    escapeChars (c :: cs) = entity c ++ escapeChars cs := by
  rw [← List.singleton_append, escapeChars_append, escapeChars_singleton]

/-- Escaping looks at each character once. -/
theorem escapeChars_eq_flatMap (cs : List Char) : escapeChars cs = cs.flatMap entity := by
  induction cs with
  | nil => rfl
  | cons c cs ih => rw [escapeChars_cons, ih, List.flatMap_cons]

/-- No entity holds a delimiter. -/
theorem isDelimiter_of_mem_entity {c d : Char} (h : d ∈ entity c) : isDelimiter d = false := by
  rcases entity_eq_or c with ⟨e, he, -, heq⟩ | ⟨hne, hself⟩
  · have hall : e.2.toList.all (!isDelimiter ·) = true := by
      simp only [entities, List.mem_cons, List.not_mem_nil, or_false] at he
      rcases he with rfl | rfl | rfl | rfl | rfl <;> rfl
    simpa using List.all_eq_true.mp hall d (heq ▸ h)
  · rw [hself, List.mem_singleton] at h
    simp only [entities, List.forall_mem_cons] at hne
    simp [isDelimiter, h, hne]

/-- No escaped text holds a delimiter. -/
theorem isDelimiter_of_mem_escapeChars {cs : List Char} {c : Char} (h : c ∈ escapeChars cs) :
    isDelimiter c = false := by
  rw [escapeChars_eq_flatMap] at h
  obtain ⟨d, -, hc⟩ := List.mem_flatMap.mp h
  exact isDelimiter_of_mem_entity hc

/-! ### Plain texts -/

theorem isPlain_iff {s : String} : isPlain s = true ↔ ∀ c ∈ s.toList, isDelimiter c = false := by
  simp [isPlain]

@[simp]
theorem isPlain_append {s t : String} : isPlain (s ++ t) = (isPlain s && isPlain t) := by
  simp [isPlain]

/-- Whatever a text is, escaped it is plain. -/
@[simp]
theorem isPlain_escape (s : String) : isPlain (escape s) = true := by
  rw [isPlain_iff, escape, String.toList_ofList]
  exact fun _ => isDelimiter_of_mem_escapeChars

end WallCalendar.Markup
