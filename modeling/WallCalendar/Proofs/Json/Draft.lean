import WallCalendar.Json.Draft
import WallCalendar.Proofs.Json.Token

/-!
A value that is written is read back.

The machine that reads drafts takes the tokens of a written value, whatever frames stand around it,
as one step that puts the value into the innermost frame. So the text of a value is read whole, and
as that value.
-/

namespace WallCalendar.Json

open WallCalendar.Text

/-! ### Values -/

mutual

/-- What a written value is read as. -/
def Value.draft : Value → Draft
  | .null => .null
  | .bool b => .bool b
  | .integer n => .number (.ofInt n)
  | .text s => .text (some s)
  | .list items => .list (draftItems items)
  | .object fields => .object (draftFields fields)

/-- What written items are read as. -/
def draftItems : List Value → List Draft
  | [] => []
  | item :: items => item.draft :: draftItems items

/-- What written fields are read as. -/
def draftFields : List (String × Value) → List (Option String × Draft)
  | [] => []
  | (key, value) :: fields => (some key, value.draft) :: draftFields fields

end

/-- What follows the items of a list does not go on with a number. -/
theorem endsNumber_itemChars (depth : Nat) (items : List Value) {rest : List Char}
    (h : EndsNumber rest) : EndsNumber (itemChars depth items ++ rest) := by
  cases items with
  | nil => exact h
  | cons item items => exact endsNumber_cons.mpr (by decide)

theorem endsNumber_fieldChars (depth : Nat) (fields : List (String × Value)) {rest : List Char}
    (h : EndsNumber rest) : EndsNumber (fieldChars depth fields ++ rest) := by
  cases fields with
  | nil => exact h
  | cons field fields => exact endsNumber_cons.mpr (by decide)

theorem endsNumber_line (depth : Nat) (rest : List Char) :
    EndsNumber (lineChars depth ++ rest) := endsNumber_cons.mpr (by decide)

namespace Build

/-- The machine after the tokens of a text. -/
def run (b : Build) (cs : List Char) : Build := (tokens cs).foldl step b

/-! What one token does, wherever the text goes on. -/

theorem run_line (b : Build) (depth : Nat) (rest : List Char) :
    b.run (lineChars depth ++ rest) = b.run rest := by rw [run, tokens_line, run]

theorem run_string (b : Build) (s : String) (rest : List Char) :
    b.run (stringChars s ++ rest) = (b.step (.text (some s))).run rest := by
  rw [run, tokens_string, List.foldl_cons, run]

theorem run_integer (b : Build) (n : Int) {rest : List Char} (h : EndsNumber rest) :
    b.run (integer n ++ rest) = (b.step (.number (.ofInt n))).run rest := by
  rw [run, tokens_integer n h, List.foldl_cons, run]

theorem run_mark (b : Build) {c : Char} {t : Token} (h : mark? c = some t)
    (hspace : isSpace c = false) (rest : List Char) :
    b.run (c :: rest) = (b.step t).run rest := by
  rw [run, tokens_mark hspace h, List.foldl_cons, run]

theorem run_word (b : Build) {c : Char} {t : Token} {cs rest : List Char}
    (hspace : isSpace c = false) (hmark : mark? c = none)
    (h : scanLong (c :: cs) = some (t, rest)) : b.run (c :: cs) = (b.step t).run rest := by
  rw [run, tokens_long hspace hmark h, List.foldl_cons, run]

/-- Where a value may start, every token but a closing bracket starts one. -/
theorem step_start {need : Need} {t : Token} (hneed : need = .value ∨ need = .itemOrEnd)
    (ht : t ≠ .closeBracket) (frames : List Frame) :
    step (.going need frames) t = start t frames := by
  rcases hneed with rfl | rfl
  · rfl
  · rcases frames with _ | ⟨_ | _ | _, frames⟩ <;> cases t <;> first | rfl | exact absurd rfl ht

/-- A key opens a member of its object. -/
theorem run_key {need : Need} (hneed : need = .keyOrEnd ∨ need = .key) (key : String)
    (done : List (Option String × Draft)) (frames : List Frame) (rest : List Char) :
    run (.going need (.object done :: frames)) (stringChars key ++ ':' :: ' ' :: rest) =
      run (.going .value (.member done (some key) :: frames)) rest := by
  have hstep : step (.going need (.object done :: frames)) (.text (some key)) =
      .going .colon (.member done (some key) :: frames) := by
    rcases hneed with rfl | rfl <;> rfl
  rw [run_string, hstep, run_mark _ rfl rfl, step, run, tokens_space rfl, run]

/-! What a written value does: the induction is on the value, whatever the frames around it are. -/

mutual

/-- The text of a value puts the value into the innermost frame. -/
theorem run_chars (v : Value) (depth : Nat) {need : Need} (frames : List Frame) {rest : List Char}
    (hneed : need = .value ∨ need = .itemOrEnd) (hrest : EndsNumber rest) :
    run (.going need frames) (v.chars depth ++ rest) = run (place v.draft frames) rest := by
  match v with
  | .null =>
    rw [Value.chars, List.cons_append, run_word _ rfl rfl rfl, step_start hneed (by simp)]
    rfl
  | .bool true =>
    rw [Value.chars, List.cons_append, run_word _ rfl rfl rfl, step_start hneed (by simp)]
    rfl
  | .bool false =>
    rw [Value.chars, List.cons_append, run_word _ rfl rfl rfl, step_start hneed (by simp)]
    rfl
  | .integer n =>
    rw [Value.chars, run_integer _ n hrest, step_start hneed (by simp)]
    rfl
  | .text s =>
    rw [Value.chars, run_string, step_start hneed (by simp)]
    rfl
  | .list [] =>
    rw [Value.chars, List.cons_append, run_mark _ rfl rfl, step_start hneed (by simp),
      List.cons_append, run_mark _ rfl rfl]
    rfl
  | .list (item :: items) =>
    simp only [Value.chars, List.cons_append, List.append_assoc, List.nil_append]
    rw [run_mark _ rfl rfl, step_start hneed (by simp), start, run_line,
      run_chars item _ _ (.inr rfl) (endsNumber_itemChars _ _ (endsNumber_line _ _)), place,
      run_itemChars items _ _ _ (endsNumber_line _ _), run_line, run_mark _ rfl rfl]
    simp [step, Value.draft, draftItems]
  | .object [] =>
    rw [Value.chars, List.cons_append, run_mark _ rfl rfl, step_start hneed (by simp),
      List.cons_append, run_mark _ rfl rfl]
    rfl
  | .object ((key, value) :: fields) =>
    simp only [Value.chars, List.cons_append, List.append_assoc, List.nil_append]
    rw [run_mark _ rfl rfl, step_start hneed (by simp), start, run_line, run_key (.inl rfl),
      run_chars value _ _ (.inl rfl) (endsNumber_fieldChars _ _ (endsNumber_line _ _)), place,
      run_fieldChars fields _ _ _ (endsNumber_line _ _), run_line, run_mark _ rfl rfl]
    simp [step, Value.draft, draftFields]

/-- The items of a list after the first go into its frame. -/
theorem run_itemChars (items : List Value) (depth : Nat) (done : List Draft) (frames : List Frame)
    {rest : List Char} (hrest : EndsNumber rest) :
    run (.going .commaOrEnd (.list done :: frames)) (itemChars depth items ++ rest) =
      run (.going .commaOrEnd (.list ((draftItems items).reverse ++ done) :: frames)) rest := by
  match items with
  | [] => rfl
  | item :: items =>
    simp only [itemChars, List.cons_append, List.append_assoc]
    rw [run_mark _ rfl rfl, step, run_line,
      run_chars item _ _ (.inl rfl) (endsNumber_itemChars _ _ hrest), place,
      run_itemChars items _ _ _ hrest]
    simp [draftItems]

/-- The fields of an object after the first go into its frame. -/
theorem run_fieldChars (fields : List (String × Value)) (depth : Nat)
    (done : List (Option String × Draft)) (frames : List Frame) {rest : List Char}
    (hrest : EndsNumber rest) :
    run (.going .commaOrEnd (.object done :: frames)) (fieldChars depth fields ++ rest) =
      run (.going .commaOrEnd (.object ((draftFields fields).reverse ++ done) :: frames)) rest := by
  match fields with
  | [] => rfl
  | (key, value) :: fields =>
    simp only [fieldChars, List.cons_append, List.append_assoc, List.nil_append]
    rw [run_mark _ rfl rfl, step, run_line, run_key (.inr rfl),
      run_chars value _ _ (.inl rfl) (endsNumber_fieldChars _ _ hrest), place,
      run_fieldChars fields _ _ _ hrest]
    simp [draftFields]

end

end Build

/-- The text of a value is read whole and as that value, blanks after it being passed over. -/
theorem Draft.read_pretty_append (v : Value) {s : String} (h : ∀ c ∈ s.toList, isSpace c = true) :
    Draft.read (v.pretty ++ s) = (v.draft, true) := by
  have hends : EndsNumber s.toList := by
    intro c hc
    have hspace := h c (List.mem_of_mem_head? hc)
    simp only [isSpace, Bool.or_eq_true, beq_iff_eq] at hspace
    rcases hspace with ((rfl | rfl) | rfl) | rfl <;> decide
  have hrun := Build.run_chars v 0 [] (.inl rfl) hends
  have hblank : tokens s.toList = [] := by
    rw [← List.append_nil s.toList, tokens_spaces h, tokens_nil]
  rw [Build.run, Build.run, hblank] at hrun
  rw [read, Value.pretty, String.toList_append, String.toList_ofList, hrun]
  rfl

end WallCalendar.Json
