import Mathlib.Algebra.Ring.Nat
import Mathlib.Data.List.Basic
import Mathlib.Data.List.Induction
import Mathlib.Data.List.TakeWhile
import WallCalendar.Text.Basic

/-!
Digits that are written are read back.

However many digits a number is written with, they have its value, and a run of digits is cut off a
text just where it ends: after the digits that may be taken, or at the first character that is none.
-/

namespace WallCalendar.Text

/-! ### One digit -/

theorem isDigit_digitChar {d : Nat} (h : d < 10) : (digitChar d).isDigit = true := by
  revert d; decide

theorem digitValue_digitChar {d : Nat} (h : d < 10) : digitValue (digitChar d) = d := by
  revert d; decide

theorem toNat_of_isDigit {c : Char} (h : c.isDigit = true) : 48 ≤ c.toNat ∧ c.toNat ≤ 57 := by
  simpa [Char.isDigit, UInt32.le_iff_toNat_le] using h

theorem digitValue_lt {c : Char} (h : c.isDigit = true) : digitValue c < 10 := by
  have hrange := toNat_of_isDigit h
  unfold digitValue
  omega

theorem digitChar_digitValue {c : Char} (h : c.isDigit = true) : digitChar (digitValue c) = c := by
  have hrange := toNat_of_isDigit h
  rw [digitChar, digitValue, Nat.add_sub_cancel' hrange.1, Char.ofNat_toNat]

theorem digitChar_eq_zero_iff {d : Nat} (h : d < 10) : digitChar d = '0' ↔ d = 0 := by
  revert d; decide

/-! ### Values -/

theorem digitsValue_concat (ds : List Char) (c : Char) :
    digitsValue (ds ++ [c]) = 10 * digitsValue ds + digitValue c := by
  simp [digitsValue]

theorem digitsValue_decimal (n : Nat) : digitsValue (decimal n) = n := by
  induction n using decimal.induct with
  | case1 n h => rw [decimal, if_pos h]; simp [digitsValue, digitValue_digitChar h]
  | case2 n h ih =>
    rw [decimal, if_neg h, digitsValue_concat, ih, digitValue_digitChar (by omega)]
    omega

theorem digitsValue_fixed (w n : Nat) : digitsValue (fixed w n) = n % 10 ^ w := by
  induction w generalizing n with
  | zero => simp [fixed, digitsValue, Nat.mod_one]
  | succ w ih =>
    rw [fixed, digitsValue_concat, ih, digitValue_digitChar (Nat.mod_lt _ (by omega)),
      Nat.pow_succ', Nat.mod_mul]
    omega

theorem digitsValue_padded (w n : Nat) : digitsValue (padded w n) = n := by
  unfold padded
  split
  · next h => rw [digitsValue_fixed]; exact Nat.mod_eq_of_lt h
  · exact digitsValue_decimal n

/-! ### Digits and nothing else -/

theorem isDigit_of_mem_decimal (n : Nat) : ∀ c ∈ decimal n, c.isDigit = true := by
  induction n using decimal.induct with
  | case1 n h => rw [decimal, if_pos h]; simpa using isDigit_digitChar h
  | case2 n h ih =>
    rw [decimal, if_neg h]
    intro c hc
    rcases List.mem_append.mp hc with hc | hc
    · exact ih c hc
    · rw [List.mem_singleton.mp hc]
      exact isDigit_digitChar (Nat.mod_lt _ (by omega))

theorem isDigit_of_mem_fixed (w n : Nat) : ∀ c ∈ fixed w n, c.isDigit = true := by
  induction w generalizing n with
  | zero => simp [fixed]
  | succ w ih =>
    intro c hc
    rcases List.mem_append.mp hc with hc | hc
    · exact ih _ c hc
    · rw [List.mem_singleton.mp hc]
      exact isDigit_digitChar (Nat.mod_lt _ (by omega))

theorem isDigit_of_mem_padded (w n : Nat) : ∀ c ∈ padded w n, c.isDigit = true := by
  unfold padded
  split
  · exact isDigit_of_mem_fixed w n
  · exact isDigit_of_mem_decimal n

@[simp] theorem length_fixed (w n : Nat) : (fixed w n).length = w := by
  induction w generalizing n with
  | zero => rfl
  | succ w ih => rw [fixed, List.length_append, ih]; rfl

/-- Digits are those of their value, zeros in front included. -/
theorem fixed_digitsValue {ds : List Char} (hds : ∀ c ∈ ds, c.isDigit = true) :
    fixed ds.length (digitsValue ds) = ds := by
  induction ds using List.reverseRecOn with
  | nil => rfl
  | append_singleton ds c ih =>
    rw [List.forall_mem_append, List.forall_mem_singleton] at hds
    have hvalue := digitValue_lt hds.2
    rw [List.length_append, List.length_singleton, fixed, digitsValue_concat,
      show (10 * digitsValue ds + digitValue c) / 10 = digitsValue ds by omega,
      show (10 * digitsValue ds + digitValue c) % 10 = digitValue c by omega, ih hds.1,
      digitChar_digitValue hds.2]

/-- So many digits have a value of so many digits. -/
theorem digitsValue_lt {ds : List Char} (hds : ∀ c ∈ ds, c.isDigit = true) :
    digitsValue ds < 10 ^ ds.length := by
  rw [← fixed_digitsValue hds, digitsValue_fixed, length_fixed]
  exact Nat.mod_lt _ (Nat.pow_pos (by decide))

theorem decimal_ne_nil (n : Nat) : decimal n ≠ [] := by
  rw [decimal]
  split <;> simp

theorem padded_ne_nil {w : Nat} (h : w ≠ 0) (n : Nat) : padded w n ≠ [] := by
  unfold padded
  split
  · rw [← List.length_pos_iff, length_fixed]
    exact Nat.pos_of_ne_zero h
  · exact decimal_ne_nil n

/-- Zero is the only number whose digits start with a zero. -/
theorem head?_decimal_ne_zero {n : Nat} (h : n ≠ 0) : (decimal n).head? ≠ some '0' := by
  induction n using decimal.induct with
  | case1 n hlt =>
    rw [decimal, if_pos hlt, List.head?_cons]
    simpa [digitChar_eq_zero_iff hlt] using h
  | case2 n hge ih =>
    rw [decimal, if_neg hge, List.head?_append_of_ne_nil _ (decimal_ne_nil _)]
    exact ih (by omega)

/-- A number starts with a digit, and with a zero only if that is all of it. -/
theorem exists_decimal_eq_cons (n : Nat) :
    ∃ c cs, decimal n = c :: cs ∧ c.isDigit = true ∧ (c = '0' → cs = []) := by
  cases h : decimal n with
  | nil => exact absurd h (decimal_ne_nil n)
  | cons c cs =>
    refine ⟨c, cs, rfl, isDigit_of_mem_decimal n c (by simp [h]), ?_⟩
    rintro rfl
    by_cases hn : n = 0
    · rw [hn, decimal, if_pos (by omega)] at h
      exact (List.cons.inj h).2.symm
    · exact absurd (by simp [h]) (head?_decimal_ne_zero hn)

/-! ### Runs of digits -/

/-- A text that does not go on with a digit. -/
def EndsDigits (cs : List Char) : Prop := ∀ c ∈ cs.head?, c.isDigit = false

theorem endsDigits_nil : EndsDigits [] := by simp [EndsDigits]

theorem endsDigits_cons {c : Char} {cs : List Char} :
    EndsDigits (c :: cs) ↔ c.isDigit = false := by simp [EndsDigits]

/-- All digits are taken, and what follows them is left. -/
theorem spanAllDigits_append {ds cs : List Char} (hds : ∀ c ∈ ds, c.isDigit = true)
    (hcs : EndsDigits cs) : spanAllDigits (ds ++ cs) = (ds, cs) := by
  rw [spanAllDigits, List.takeWhile_append_of_pos hds, List.dropWhile_append_of_pos hds]
  cases cs with
  | nil => simp
  | cons c cs => simp [endsDigits_cons.mp hcs]

/-- The leading digits of a text are taken and nothing else. -/
theorem spanAllDigits_spec (cs : List Char) :
    ∃ ds rest, spanAllDigits cs = (ds, rest) ∧ cs = ds ++ rest ∧ (∀ c ∈ ds, c.isDigit = true) ∧
      EndsDigits rest := by
  refine ⟨_, _, rfl, List.takeWhile_append_dropWhile.symm, fun c => List.mem_takeWhile_imp, ?_⟩
  intro c hc
  have hnot := List.head?_dropWhile_not Char.isDigit cs
  rw [Option.mem_def] at hc
  rw [hc] at hnot
  exact hnot

/-- Digits are taken off a text up to the first other character, or as many as may be. -/
theorem spanDigits_of_stops {most : Nat} {ds cs : List Char} (hds : ∀ c ∈ ds, c.isDigit = true)
    (hle : ds.length ≤ most) (hstop : ds.length = most ∨ EndsDigits cs) :
    spanDigits most (ds ++ cs) = (ds, cs) := by
  induction ds generalizing most with
  | nil =>
    cases most with
    | zero => rfl
    | succ most =>
      have hend : EndsDigits cs := hstop.resolve_left (Nat.succ_ne_zero most).symm
      cases cs with
      | nil => rfl
      | cons c cs => rw [List.nil_append, spanDigits, if_neg (by simp [endsDigits_cons.mp hend])]
  | cons d ds ih =>
    rw [List.forall_mem_cons] at hds
    cases most with
    | zero => exact absurd hle (Nat.not_succ_le_zero _)
    | succ most =>
      have hrest := ih hds.2 (Nat.le_of_succ_le_succ hle) (hstop.imp_left Nat.succ.inj)
      rw [List.cons_append, spanDigits, if_pos hds.1, hrest]

/-- As many digits are taken as may be, whatever follows them. -/
theorem spanDigits_append {ds : List Char} (hds : ∀ c ∈ ds, c.isDigit = true) (cs : List Char) :
    spanDigits ds.length (ds ++ cs) = (ds, cs) :=
  spanDigits_of_stops hds (Nat.le_refl _) (.inl rfl)

/-- All that is taken off a text is digits, and they could not be more. -/
theorem spanDigits_spec (most : Nat) (cs : List Char) :
    ∃ ds rest, spanDigits most cs = (ds, rest) ∧ cs = ds ++ rest ∧ (∀ c ∈ ds, c.isDigit = true) ∧
      ds.length ≤ most ∧ (ds.length = most ∨ EndsDigits rest) := by
  induction cs generalizing most with
  | nil =>
    refine ⟨[], [], ?_, rfl, by simp, Nat.zero_le _, .inr endsDigits_nil⟩
    cases most <;> rfl
  | cons c cs ih =>
    cases most with
    | zero => exact ⟨[], c :: cs, rfl, rfl, by simp, Nat.le_refl 0, .inl rfl⟩
    | succ most =>
      by_cases hc : c.isDigit = true
      · obtain ⟨ds, rest, hspan, rfl, hds, hle, hstop⟩ := ih most
        exact ⟨c :: ds, rest, by rw [spanDigits, if_pos hc, hspan], rfl,
          List.forall_mem_cons.mpr ⟨hc, hds⟩, Nat.succ_le_succ hle,
          hstop.imp_left (congrArg Nat.succ)⟩
      · exact ⟨[], c :: cs, by rw [spanDigits, if_neg hc], rfl, by simp, Nat.zero_le _,
          .inr (endsDigits_cons.mpr (Bool.eq_false_iff.mpr hc))⟩

end WallCalendar.Text
