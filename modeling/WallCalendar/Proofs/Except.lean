import Mathlib.Data.List.Forall2

/-!
When computations that may fail succeed, and which failure is reported.

A sequence of steps succeeds just when every step does, each on what the steps before it gave. If it
fails, it fails with the error of the first step that does.
-/

namespace WallCalendar

variable {ε α β : Type}

theorem bind_eq_ok_iff {x : Except ε α} {f : α → Except ε β} {b : β} :
    (x >>= f) = .ok b ↔ ∃ a, x = .ok a ∧ f a = .ok b := by
  cases x with
  | error e => simp [bind, Except.bind]
  | ok a => simp [bind, Except.bind]

/-- Every member passes a check just when the whole list does. -/
theorem forM_eq_ok_iff {f : α → Except ε Unit} : ∀ {xs : List α},
    xs.forM f = .ok () ↔ ∀ x ∈ xs, f x = .ok ()
  | [] => by simp [List.forM, pure, Except.pure]
  | x :: xs => by
      rw [List.forall_mem_cons, ← forM_eq_ok_iff]
      exact bind_eq_ok_iff.trans ⟨fun ⟨_, hx, hxs⟩ => ⟨hx, hxs⟩, fun ⟨hx, hxs⟩ => ⟨(), hx, hxs⟩⟩

/-- A list is read member by member. -/
theorem mapM_eq_ok_iff {f : α → Except ε β} : ∀ {xs : List α} {ys : List β},
    xs.mapM f = .ok ys ↔ List.Forall₂ (fun x y => f x = .ok y) xs ys
  | [], ys => by
      rw [List.mapM_nil, List.forall₂_nil_left_iff]
      exact ⟨fun h => (Except.ok.inj h).symm, fun h => h ▸ rfl⟩
  | x :: xs, ys => by
      rw [List.mapM_cons, bind_eq_ok_iff, List.forall₂_cons_left_iff]
      constructor
      · rintro ⟨y, hy, hrest⟩
        obtain ⟨rest, hxs, hys⟩ := bind_eq_ok_iff.mp hrest
        cases hys
        exact ⟨y, rest, hy, mapM_eq_ok_iff.mp hxs, rfl⟩
      · rintro ⟨y, rest, hy, hxs, rfl⟩
        exact ⟨y, hy, bind_eq_ok_iff.mpr ⟨rest, mapM_eq_ok_iff.mpr hxs, rfl⟩⟩

/-! ### The first failure -/

theorem bind_eq_error_iff {x : Except ε α} {f : α → Except ε β} {e : ε} :
    (x >>= f) = .error e ↔ x = .error e ∨ ∃ a, x = .ok a ∧ f a = .error e := by
  cases x with
  | error e' => simp [bind, Except.bind]
  | ok a => simp [bind, Except.bind]

/-- `x` is the first member of a list with the property `P`. -/
def IsFirst (P : α → Prop) (xs : List α) (x : α) : Prop :=
  ∃ before after, xs = before ++ x :: after ∧ P x ∧ ∀ y ∈ before, ¬ P y

theorem not_isFirst_nil {P : α → Prop} {x : α} : ¬ IsFirst P [] x := by
  rintro ⟨before, after, h, -⟩
  cases before <;> cases h

/-- The first member is the head, or the first of the rest if the head lacks the property. -/
theorem isFirst_cons {P : α → Prop} {x y : α} {xs : List α} :
    IsFirst P (y :: xs) x ↔ P y ∧ x = y ∨ ¬ P y ∧ IsFirst P xs x := by
  constructor
  · rintro ⟨before, after, h, hx, hbefore⟩
    cases before with
    | nil =>
      cases h
      exact .inl ⟨hx, rfl⟩
    | cons b before =>
      cases h
      exact .inr ⟨hbefore y (List.mem_cons_self ..), before, after, rfl, hx,
        fun z hz => hbefore z (List.mem_cons_of_mem _ hz)⟩
  · rintro (⟨hy, rfl⟩ | ⟨hy, before, after, rfl, hx, hbefore⟩)
    · exact ⟨[], xs, rfl, hy, by simp⟩
    · exact ⟨y :: before, after, rfl, hx, List.forall_mem_cons.mpr ⟨hy, hbefore⟩⟩

/-- Of the members that a step fails on, the first gives the error `e`. -/
def FirstError (f : α → Except ε β) (xs : List α) (e : ε) : Prop :=
  ∃ x, IsFirst (fun y => ∃ e', f y = .error e') xs x ∧ f x = .error e

theorem not_firstError_nil {f : α → Except ε β} {e : ε} : ¬ FirstError f [] e :=
  fun ⟨_, hfirst, _⟩ => not_isFirst_nil hfirst

theorem firstError_cons {f : α → Except ε β} {x : α} {xs : List α} {e : ε} :
    FirstError f (x :: xs) e ↔ f x = .error e ∨ ∃ b, f x = .ok b ∧ FirstError f xs e := by
  simp only [FirstError, isFirst_cons]
  cases hx : f x with
  | error e' => simp [hx]
  | ok b => simp

/-- A list of checks fails with the error of the first check that does. -/
theorem forM_eq_error_iff {f : α → Except ε Unit} {e : ε} : ∀ {xs : List α},
    xs.forM f = .error e ↔ FirstError f xs e
  | [] => by simp [List.forM, pure, Except.pure, not_firstError_nil]
  | x :: xs => by
      rw [firstError_cons, ← forM_eq_error_iff]
      exact bind_eq_error_iff

/-- A list is not read if one of its members is not, and then the first of them gives the error. -/
theorem mapM_eq_error_iff {f : α → Except ε β} {e : ε} : ∀ {xs : List α},
    xs.mapM f = .error e ↔ FirstError f xs e
  | [] => by simp [pure, Except.pure, not_firstError_nil]
  | x :: xs => by
      rw [List.mapM_cons, bind_eq_error_iff, firstError_cons, ← mapM_eq_error_iff]
      simp only [bind_eq_error_iff, pure, Except.pure, reduceCtorEq, and_false, exists_false,
        or_false]

end WallCalendar
