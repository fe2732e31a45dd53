import WallCalendar.Proofs.Timestamp.Scan

/-!
The letters of a text that a pattern accepts.

Numbers, fractions and offsets are made of blanks, digits and a few marks. All else that a pattern
takes stands in the pattern itself, so the letters of a text are just those of its pattern.
-/

namespace WallCalendar

open WallCalendar.Text

namespace Timestamp

variable {p : Pattern} {cs rest : List Char} {c : Char}

/-! ### Accepted texts -/

/-- A pattern accepts a text that its items use up, as every text does that it reads as a date or a
moment. -/
def Pattern.Accepts (p : Pattern) (cs : List Char) : Prop := (p.read cs).isSome = true

theorem read_eq_some_iff {f : Fields} : p.read cs = some f ↔ p.scan {} cs = some (f, []) := by
  unfold Pattern.read
  split
  next g hscan => rw [hscan]; simp
  next hnone => exact ⟨fun h => (nomatch h), fun h => absurd h (hnone f)⟩

theorem accepts_iff : p.Accepts cs ↔ ∃ f, p.scan {} cs = some (f, []) := by
  simp only [Pattern.Accepts, Option.isSome_iff_exists, read_eq_some_iff]

theorem accepts_of_bind_eq_some {α : Type} {k : Fields → Option α} {a : α}
    (h : (p.read cs).bind k = some a) : p.Accepts cs := by
  obtain ⟨f, hf, -⟩ := Option.bind_eq_some_iff.mp h
  rw [Pattern.Accepts, hf]
  rfl

/-! ### Marks -/

/-- Whether a character can stand in a number, a fraction or an offset. -/
def isMark (c : Char) : Bool :=
  isBlank c || c.isDigit || c == '+' || c == '-' || c == '\u2212' || c == '.' || c == ':'

/-- The characters of two texts that are no marks are the same. -/
def SameLetters (cs rest : List Char) : Prop := ∀ c, isMark c = false → (c ∈ cs ↔ c ∈ rest)

theorem SameLetters.refl (cs : List Char) : SameLetters cs cs := fun _ _ => Iff.rfl

theorem SameLetters.trans {mid : List Char} (h : SameLetters cs mid) (h' : SameLetters mid rest) :
    SameLetters cs rest := fun c hc => (h c hc).trans (h' c hc)

theorem sameLetters_append (taken rest : List Char) (h : ∀ c ∈ taken, isMark c = true) :
    SameLetters (taken ++ rest) rest := by
  intro c hc
  rw [List.mem_append, or_iff_right]
  intro hmem
  rw [h c hmem] at hc
  cases hc

theorem sameLetters_cons (h : isMark c = true) (cs : List Char) : SameLetters (c :: cs) cs :=
  sameLetters_append [c] cs (by simpa using h)

theorem sameLetters_dropWhile {f : Char → Bool} (h : ∀ c, f c = true → isMark c = true)
    (cs : List Char) : SameLetters cs (cs.dropWhile f) := by
  have htaken : ∀ c ∈ cs.takeWhile f, isMark c = true := fun c hc =>
    h c (List.mem_takeWhile_imp hc)
  have hsplit := sameLetters_append (cs.takeWhile f) (cs.dropWhile f) htaken
  rwa [List.takeWhile_append_dropWhile] at hsplit

theorem sameLetters_skipBlanks (cs : List Char) : SameLetters cs (skipBlanks cs) :=
  sameLetters_dropWhile (fun c hc => by simp [isMark, hc]) cs

theorem sameLetters_spanAllDigits (cs : List Char) : SameLetters cs (spanAllDigits cs).2 :=
  sameLetters_dropWhile (fun c hc => by simp [isMark, hc]) cs

theorem sameLetters_spanDigits : ∀ (n : Nat) (cs : List Char), SameLetters cs (spanDigits n cs).2
  | 0, cs => .refl cs
  | _ + 1, [] => .refl []
  | n + 1, c :: cs => by
      rw [spanDigits]
      split
      next hc =>
        exact (sameLetters_cons (by simp [isMark, hc]) cs).trans (sameLetters_spanDigits n cs)
      next => exact .refl _

theorem eq_of_valueOfDigits {x : List Char × List Char} {n : Nat}
    (h : valueOfDigits x = some (n, rest)) : rest = x.2 := by
  unfold valueOfDigits at h
  split at h <;> cases h
  rfl

theorem sameLetters_scanNumber {n : Nat} (h : scanNumber cs = some (n, rest)) :
    SameLetters cs rest := by
  rw [eq_of_valueOfDigits h]
  exact (sameLetters_skipBlanks cs).trans (sameLetters_spanDigits 2 _)

/-- What is done with a value does not change what is left of the text. -/
theorem exists_of_map_eq_some {α β : Type} {x : Option (α × List Char)} {y : β}
    {k : α × List Char → β × List Char} (h : x.map k = some (y, rest))
    (hk : ∀ a, (k a).2 = a.2) : ∃ a, x = some (a, rest) := by
  obtain ⟨⟨a, after⟩, hx, heq⟩ := Option.map_eq_some_iff.mp h
  have hafter : rest = after := by simpa only [heq] using hk (a, after)
  exact ⟨a, hafter ▸ hx⟩

theorem sameLetters_scanYear {n : Int} (h : scanYear cs = some (n, rest)) :
    SameLetters cs rest := by
  refine (sameLetters_skipBlanks cs).trans ?_
  unfold scanYear at h
  split at h
  next digits heq =>
    obtain ⟨m, hm⟩ := exists_of_map_eq_some h fun _ => rfl
    rw [heq, eq_of_valueOfDigits hm]
    exact (sameLetters_cons (by decide) digits).trans (sameLetters_spanAllDigits digits)
  next digits heq =>
    obtain ⟨m, hm⟩ := exists_of_map_eq_some h fun _ => rfl
    rw [heq, eq_of_valueOfDigits hm]
    exact (sameLetters_cons (by decide) digits).trans (sameLetters_spanAllDigits digits)
  next =>
    obtain ⟨m, hm⟩ := exists_of_map_eq_some h fun _ => rfl
    rw [eq_of_valueOfDigits hm]
    exact sameLetters_spanDigits 4 _

theorem sameLetters_scanFraction {n : Nat} (h : scanFraction cs = some (n, rest)) :
    SameLetters cs rest := by
  unfold scanFraction at h
  split at h
  next digits =>
    simp only at h
    split at h <;> cases h
    exact (sameLetters_cons (by decide) digits).trans (sameLetters_spanAllDigits digits)
  next => cases h; exact .refl _

theorem sameLetters_scanSign {n : Int} (h : Offset.scanSign cs = some (n, rest)) :
    SameLetters cs rest := by
  unfold Offset.scanSign at h
  split at h <;> cases h <;> exact sameLetters_cons (by decide) rest

theorem sameLetters_scanPair {n : Nat} (h : Offset.scanPair cs = some (n, rest)) :
    SameLetters cs rest := by
  unfold Offset.scanPair at h
  split at h
  next c d cs =>
    split at h
    next hdigits =>
      cases h
      obtain ⟨hc, hd⟩ := Bool.and_eq_true_iff.mp hdigits
      exact sameLetters_append [c, d] rest (by simp [isMark, hc, hd])
    next => cases h
  next => cases h

theorem sameLetters_scanOffset {o : Offset} (h : Offset.scan cs = some (o, rest)) :
    SameLetters cs rest := by
  simp only [Offset.scan, Option.bind_eq_bind, Option.bind_eq_some_iff, Prod.exists] at h
  obtain ⟨sign, afterSign, hsign, hours, afterHours, hpair, minutes, after, hpair', h⟩ := h
  have hseparator : SameLetters afterHours (afterHours.dropWhile Offset.isSeparator) :=
    sameLetters_dropWhile (fun c hc => by
      rcases Bool.or_eq_true_iff.mp hc with hc | hc <;> simp [isMark, hc]) afterHours
  split at h
  next =>
    obtain ⟨offset, -, heq⟩ := Option.bind_eq_some_iff.mp h
    cases heq
    exact (sameLetters_scanSign hsign).trans <| (sameLetters_scanPair hpair).trans <|
      hseparator.trans (sameLetters_scanPair hpair')
  next => cases h

/-- An item takes marks and, if it is a letter, that letter. -/
theorem mem_iff_of_item_scan {item : Item} {f g : Fields} (h : item.scan f cs = some (g, rest))
    (hc : isMark c = false) : c ∈ cs ↔ Item.literal c = item ∨ c ∈ rest := by
  cases item with
  | literal d =>
    cases cs with
    | nil => cases h
    | cons e cs =>
      rw [Item.scan] at h
      split at h <;> cases h
      next he => rw [List.mem_cons, he, Item.literal.injEq]
  | year =>
    rw [Item.scan] at h
    obtain ⟨n, hn⟩ := exists_of_map_eq_some h fun _ => rfl
    simpa using sameLetters_scanYear hn c hc
  | fraction =>
    rw [Item.scan] at h
    obtain ⟨n, hn⟩ := exists_of_map_eq_some h fun _ => rfl
    simpa using sameLetters_scanFraction hn c hc
  | offset =>
    rw [Item.scan] at h
    obtain ⟨o, ho⟩ := exists_of_map_eq_some h fun _ => rfl
    simpa using ((sameLetters_skipBlanks cs).trans (sameLetters_scanOffset ho)) c hc
  | month | day | hour | minute | second =>
    rw [Item.scan] at h
    obtain ⟨n, hn⟩ := exists_of_map_eq_some h fun _ => rfl
    simpa using sameLetters_scanNumber hn c hc

/-- The letters that a pattern takes are its own. -/
theorem mem_iff_of_scan (hc : isMark c = false) : ∀ {p : Pattern} {f g : Fields} {cs : List Char},
    p.scan f cs = some (g, rest) → (c ∈ cs ↔ Item.literal c ∈ p ∨ c ∈ rest)
  | [], _, _, _, h => by cases h; simp
  | item :: p, _, _, _, h => by
      obtain ⟨⟨f', mid⟩, hitem, hp⟩ := Option.bind_eq_some_iff.mp h
      rw [mem_iff_of_item_scan hitem hc, mem_iff_of_scan hc hp, List.mem_cons, or_assoc]

/-- The letters of a text that a pattern accepts are those of the pattern. -/
theorem mem_iff_of_accepts (h : p.Accepts cs) (hc : isMark c = false) :
    c ∈ cs ↔ Item.literal c ∈ p := by
  obtain ⟨f, hf⟩ := accepts_iff.mp h
  rw [mem_iff_of_scan hc hf, or_iff_left List.not_mem_nil]

end Timestamp

end WallCalendar
