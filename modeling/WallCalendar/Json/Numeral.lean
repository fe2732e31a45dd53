import WallCalendar.Text.Shortest

/-!
Numbers of a JSON text.

A numeral keeps its digits as written. Numerals without point and exponent are integers as long as
they fit in 64 bits, signed for negative ones; all others, and minus zero, are floating-point
numbers. Their value is approximate by rule: as many leading digits as fit in 64 bits, times or over
a power of ten in double arithmetic. A numeral too large for that has no value.
-/

namespace WallCalendar.Json

open WallCalendar.Text

/-- A number as written: the digits of its parts. -/
structure Numeral where
  negative : Bool
  whole : List Char
  /-- Digits after the point, empty if there is no point. -/
  fraction : List Char
  /-- Whether the exponent is negative, and its digits. -/
  exponent : Option (Bool × List Char)
  deriving DecidableEq, Repr

/-- The value of a numeral. -/
inductive Number where
  | integer (n : Int)
  | floating (x : Float)
  deriving Repr

namespace Numeral

/-! ### Reading -/

/-- The digits after a point, if there is one; at least one must follow. -/
def scanFraction : List Char → Option (List Char × List Char)
  | '.' :: cs =>
    let (digits, rest) := spanAllDigits cs
    if digits.isEmpty then none else some (digits, rest)
  | cs => some ([], cs)

/-- The sign of an exponent. -/
def scanSign : List Char → Bool × List Char
  | '-' :: cs => (true, cs)
  | '+' :: cs => (false, cs)
  | cs => (false, cs)

/-- Sign and digits of an exponent, after its letter; at least one digit must follow. -/
def scanPower (cs : List Char) : Option (Option (Bool × List Char) × List Char) :=
  let (negative, cs) := scanSign cs
  let (digits, rest) := spanAllDigits cs
  if digits.isEmpty then none else some (some (negative, digits), rest)

/-- An exponent, if its letter follows. -/
def scanExponent : List Char → Option (Option (Bool × List Char) × List Char)
  | 'e' :: cs => scanPower cs
  | 'E' :: cs => scanPower cs
  | cs => some (none, cs)

/-- The digits before the point: at least one, and a zero only by itself. -/
def scanWhole (cs : List Char) : Option (List Char × List Char) :=
  match spanAllDigits cs with
  | ([], _) => none
  | ('0' :: _ :: _, _) => none
  | (digits, rest) => some (digits, rest)

/-- A number after its sign. -/
def scanUnsigned (negative : Bool) (cs : List Char) : Option (Numeral × List Char) := do
  let (whole, cs) ← scanWhole cs
  let (fraction, cs) ← scanFraction cs
  let (exponent, cs) ← scanExponent cs
  return (⟨negative, whole, fraction, exponent⟩, cs)

/-- A number. -/
def scan : List Char → Option (Numeral × List Char)
  | '-' :: cs => scanUnsigned true cs
  | cs => scanUnsigned false cs

/-! A number that is read uses up at least one character. -/

theorem length_of_scanFraction {cs digits rest : List Char}
    (h : scanFraction cs = some (digits, rest)) : rest.length ≤ cs.length := by
  unfold scanFraction at h
  split at h
  · rename_i cs
    have := length_spanAllDigits cs
    simp only [Option.ite_none_left_eq_some, Option.some.injEq, Prod.mk.injEq] at h
    simp only [← h.2.2, List.length_cons]
    omega
  · simp_all

theorem length_scanSign (cs : List Char) : (scanSign cs).2.length ≤ cs.length := by
  unfold scanSign
  split <;> simp

theorem length_of_scanPower {cs rest : List Char} {e : Option (Bool × List Char)}
    (h : scanPower cs = some (e, rest)) : rest.length ≤ cs.length := by
  have sign := length_scanSign cs
  have digits := length_spanAllDigits (scanSign cs).2
  simp only [scanPower, Option.ite_none_left_eq_some, Option.some.injEq, Prod.mk.injEq] at h
  rw [← h.2.2]
  omega

theorem length_of_scanExponent {cs rest : List Char} {e : Option (Bool × List Char)}
    (h : scanExponent cs = some (e, rest)) : rest.length ≤ cs.length := by
  unfold scanExponent at h
  split at h
  · have := length_of_scanPower h
    simp only [List.length_cons]
    omega
  · have := length_of_scanPower h
    simp only [List.length_cons]
    omega
  · simp_all

theorem length_of_scanWhole {cs digits rest : List Char}
    (h : scanWhole cs = some (digits, rest)) : rest.length < cs.length := by
  have := length_spanAllDigits cs
  unfold scanWhole at h
  split at h
  · simp at h
  · simp at h
  · rename_i digits' rest' nonempty _ heq
    rw [heq] at this
    simp only [Option.some.injEq, Prod.mk.injEq] at h
    rcases digits' with _ | ⟨c, cs'⟩
    · exact absurd rfl nonempty
    · simp only [List.length_cons] at this
      rw [← h.2]
      omega

theorem length_of_scanUnsigned {negative : Bool} {cs rest : List Char} {n : Numeral}
    (h : scanUnsigned negative cs = some (n, rest)) : rest.length < cs.length := by
  simp only [scanUnsigned, Option.bind_eq_bind, Option.bind_eq_some_iff] at h
  obtain ⟨⟨_, a⟩, whole, ⟨_, b⟩, fraction, ⟨_, c⟩, exponent, h⟩ := h
  obtain ⟨_, rfl⟩ : _ ∧ c = rest := by simpa using h
  have w := length_of_scanWhole whole
  have f := length_of_scanFraction fraction
  have e := length_of_scanExponent exponent
  simp only at f e
  omega

theorem length_of_scan {cs rest : List Char} {n : Numeral} (h : scan cs = some (n, rest)) :
    rest.length < cs.length := by
  unfold scan at h
  split at h
  · have := length_of_scanUnsigned h
    simp only [List.length_cons]
    omega
  · exact length_of_scanUnsigned h

/-! ### Value -/

/-- The largest significand. -/
def maxSignificand : Nat := Nat.pow 2 64 - 1

/-- Appends digits to a significand while it fits: the significand and the digits left over. -/
def absorb : Nat → List Char → Nat × List Char
  | n, [] => (n, [])
  | n, c :: cs =>
    let next := 10 * n + digitValue c
    if next ≤ maxSignificand then absorb next cs else (n, c :: cs)

/-- The power of ten as a double. -/
def tenTo (n : Nat) : Float := Float.ofScientific 1 false n

/-- `x · 10^e` in double arithmetic, unless it is too large. Powers below the smallest double are
applied in steps; `steps` bounds their number, and three are enough to reach zero. -/
def scale : Nat → Float → Int → Option Float
  | steps, x, e =>
    if 0 ≤ e then
      if e ≤ 308 then
        let y := x * tenTo e.toNat
        if y.isFinite then some y else none
      else if x == 0.0 then some x
      else none
    else if -308 ≤ e then some (x / tenTo (-e).toNat)
    else
      match steps with
      | 0 => some 0.0
      | steps + 1 => if x == 0.0 then some x else scale steps (x / tenTo 308) (e + 308)

/-- The largest exponent that is read as a number. -/
def maxExponent : Nat := Nat.pow 2 31 - 1

/-- The magnitude of a numeral as a double. -/
def magnitude? (n : Numeral) : Option Float :=
  let (whole, dropped) := absorb 0 n.whole
  let (significand, unread) := absorb whole n.fraction
  let places := (n.fraction.length - unread.length : Nat)
  let shift : Int := dropped.length - places
  let x := significand.toUInt64.toFloat
  match n.exponent with
  | none => scale 4 x shift
  | some (negative, digits) =>
    let power := digitsValue digits
    if maxExponent < power then
      if significand ≠ 0 ∧ !negative then none else some 0.0
    else scale 4 x (if negative then shift - power else shift + power)

/-- The value of a numeral, none if it is too large. -/
def value? (n : Numeral) : Option Number :=
  let digits := digitsValue n.whole
  if n.fraction.isEmpty ∧ n.exponent.isNone ∧ !n.negative ∧ digits ≤ maxSignificand then
    some (.integer digits)
  else if n.fraction.isEmpty ∧ n.exponent.isNone ∧ n.negative ∧ digits ≠ 0 ∧
      digits ≤ Nat.pow 2 63 then
    some (.integer (-(digits : Int)))
  else n.magnitude?.map fun x => .floating (if n.negative then -x else x)

end Numeral

end WallCalendar.Json
