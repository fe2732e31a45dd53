import WallCalendar.Text.Basic

/-!
The shortest decimal of a binary floating-point number.

A finite double is `m · 2^q`. The reals that round to it form an interval, whose ends belong to it
when `m` is even. On the decimal grid of one digit, then two, and so on, the two neighbours of the
value are tried; the first grid with a neighbour inside the interval gives the digits. Of two hits
the nearer wins, and the even one if they are equally near. All comparisons are exact.

The digits are written out when the first of them stands for `10^-5` to `10^15`, and with a signed
exponent otherwise.
-/

namespace WallCalendar.Text

/-- A positive double as a quotient: four times the value in units of a quarter of the last place,
the lower and the upper end of its interval in the same units, and the unit as a fraction. -/
structure Binary where
  value : Nat
  lower : Nat
  upper : Nat
  closed : Bool
  unitNum : Nat
  unitDen : Nat

/-- The parts of a positive finite double, from its bits. -/
def Binary.ofBits (bits : Nat) : Binary :=
  let exponent := bits / Nat.pow 2 52 % Nat.pow 2 11
  let fraction := bits % Nat.pow 2 52
  let m := if exponent = 0 then fraction else fraction + Nat.pow 2 52
  -- the value is `m · 2^(e - 1075)`; below a power of two the neighbours are twice as close
  let e := if exponent = 0 then 1 else exponent
  let narrow := fraction = 0 ∧ 1 < exponent
  { value := 4 * m
    lower := if narrow then 4 * m - 1 else 4 * m - 2
    upper := 4 * m + 2
    closed := m % 2 = 0
    unitNum := Nat.pow 2 (e - 1077)
    unitDen := Nat.pow 2 (1077 - e) }

/-- Whether `d · 10^k`, the power given as a fraction, rounds to the double. -/
def Binary.readsBack (b : Binary) (d num den : Nat) : Bool :=
  let point := d * num * b.unitDen
  let lower := b.lower * b.unitNum * den
  let upper := b.upper * b.unitNum * den
  if b.closed then lower ≤ point ∧ point ≤ upper else lower < point ∧ point < upper

/-- The power `10^k` as a fraction. -/
def powerOfTen (k : Int) : Nat × Nat := (Nat.pow 10 k.toNat, Nat.pow 10 (-k).toNat)

/-- The nearer of `below` and its successor to a value that is `rest / divisor` above `below`. A tie
goes to the even one. -/
def nearer (below rest divisor : Nat) : Nat :=
  if 2 * rest < divisor then below
  else if divisor < 2 * rest then below + 1
  else if below % 2 = 0 then below
  else below + 1

/-- Tries the two neighbours of the value among the multiples of `10^k`. -/
def Binary.neighbour? (b : Binary) (k : Int) : Option Nat :=
  let (num, den) := powerOfTen k
  let dividend := b.value * b.unitNum * den
  let divisor := b.unitDen * num
  let below := dividend / divisor
  match b.readsBack below num den, b.readsBack (below + 1) num den with
  | true, true => some (nearer below (dividend % divisor) divisor)
  | true, false => some below
  | false, true => some (below + 1)
  | false, false => none

/-- The exponent of the leading digit: the largest `e` with `10^e` at most the value. -/
def Binary.leading (b : Binary) : Int :=
  let holds (e : Int) : Bool :=
    let (num, den) := powerOfTen e
    num * b.unitDen ≤ b.value * b.unitNum * den
  match (List.range 640).find? fun (i : Nat) => holds (310 - i) with
  | some i => 310 - i
  | none => -330

/-- The fewest digits `d` and their exponent `k` such that `d · 10^k` reads back. Seventeen digits
always do. -/
def Binary.shortest (b : Binary) : Nat × Int :=
  let leading := b.leading
  match (List.range 17).findSome? fun (i : Nat) =>
      let k := leading - i
      (b.neighbour? k).map fun d => (d, k) with
  | some found => found
  | none => (b.value, 0)

/-- Moves the zeros at the end of `d` into the exponent. -/
def stripZeros (d : Nat) (k : Int) : Nat × Int :=
  if 0 < d ∧ d % 10 = 0 then stripZeros (d / 10) (k + 1) else (d, k)
termination_by d
decreasing_by omega

/-- `d · 10^k` without exponent, always with a point and a digit on either side of it. -/
def positional (d : Nat) (k : Int) : List Char :=
  if 0 ≤ k then decimal (d * Nat.pow 10 k.toNat) ++ ['.', '0']
  else
    let places := (-k).toNat
    let unit := Nat.pow 10 places
    decimal (d / unit) ++ '.' :: fixed places (d % unit)

/-- The exponent of the first digit of `d · 10^k`. -/
def firstExponent (d : Nat) (k : Int) : Int := k + (decimal d).length - 1

/-- `d · 10^k` with an exponent, one digit before the point, and no point after a single digit. -/
def scientific (d : Nat) (k : Int) : List Char :=
  let exponent := firstExponent d k
  let fraction := match (decimal d).drop 1 with
    | [] => []
    | digits => '.' :: digits
  (decimal d).take 1 ++ fraction ++ 'e' :: (if exponent < 0 then '-' else '+') ::
    decimal exponent.natAbs

/-- `d · 10^k` written out, unless it is very large or very small. -/
def decimalForm (d : Nat) (k : Int) : List Char :=
  let exponent := firstExponent d k
  if -5 ≤ exponent ∧ exponent ≤ 15 then positional d k else scientific d k

/-- A finite double in the fewest digits that read back. -/
def floatChars (x : Float) : List Char :=
  let bits := x.toBits.toNat
  let magnitude := bits % Nat.pow 2 63
  let digits :=
    if magnitude = 0 then positional 0 0
    else
      let (d, k) := (Binary.ofBits magnitude).shortest
      let (d, k) := stripZeros d k
      decimalForm d k
  if bits = magnitude then digits else '-' :: digits

end WallCalendar.Text
