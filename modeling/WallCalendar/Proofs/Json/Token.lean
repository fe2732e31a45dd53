import Mathlib.Data.List.Forall2
import WallCalendar.Json.Token
import WallCalendar.Json.Value
import WallCalendar.Proofs.Text.Decimal

/-!
Written strings and numbers are tokens.

Every character of a written string is scanned as one piece that stands for it, so the string is
read back up to its closing quote whatever follows. A written integer is read back where the text
does not go on with a number. Blanks between tokens are passed over.
-/

namespace WallCalendar.Json

open WallCalendar.Text

/-! ### Strings -/

/-- Puts a piece before those found. -/
def Piece.before (p : Piece) (found : List Piece × List Char) : List Piece × List Char :=
  (p :: found.1, found.2)

theorem scanPieces_short {e c : Char} (h : shortEscape? e = some c) (cs : List Char) :
    scanPieces ('\\' :: e :: cs) = (scanPieces cs).map (Piece.char c).before := by
  rw [scanPieces, h]
  · cases scanPieces cs <;> rfl
  · rintro a b c' d cs' rfl
    cases h

theorem hexUnit?_control {n : Nat} (h : n < 0x20) :
    hexUnit? '0' '0' (hexChar (n / 16)) (hexChar (n % 16)) = some n := by
  revert n; decide

theorem scanPieces_unit {n : Nat} (h : n < 0x20) (cs : List Char) :
    scanPieces ('\\' :: 'u' :: '0' :: '0' :: hexChar (n / 16) :: hexChar (n % 16) :: cs) =
      (scanPieces cs).map (Piece.unit n).before := by
  rw [scanPieces, hexUnit?_control h]
  cases scanPieces cs <;> rfl

theorem scanPieces_plain {c : Char} (hquote : c ≠ '\"') (hslash : c ≠ '\\') (h : ¬ c.toNat < 0x20)
    (cs : List Char) : scanPieces (c :: cs) = (scanPieces cs).map (Piece.char c).before := by
  rw [scanPieces, if_neg (not_or.mpr ⟨hslash, h⟩)]
  · cases scanPieces cs <;> rfl
  · exact hquote
  · rintro a b c' d cs' rfl
    exact absurd rfl hslash
  · rintro e cs' rfl
    exact absurd rfl hslash

/-- A piece that stands for a character: the character itself, or its number if it is a control. -/
inductive Piece.Means : Piece → Char → Prop where
  | char (c : Char) : Means (.char c) c
  | unit (c : Char) (h : c.toNat < 0x20) : Means (.unit c.toNat) c

/-- A written character is scanned as one piece that stands for it. -/
theorem scanPieces_escapeChar (c : Char) (cs : List Char) :
    ∃ p : Piece, p.Means c ∧ scanPieces (escapeChar c ++ cs) = (scanPieces cs).map p.before := by
  unfold escapeChar
  split
  case h_8 hquote hslash _ _ _ _ _ =>
    split
    next hcontrol => exact ⟨_, .unit c hcontrol, scanPieces_unit hcontrol cs⟩
    next hcontrol => exact ⟨_, .char c, scanPieces_plain hquote hslash hcontrol cs⟩
  all_goals exact ⟨_, .char _, scanPieces_short (by rfl) cs⟩

/-- A written string is scanned up to its closing quote. -/
theorem scanPieces_flatMap (cs rest : List Char) :
    ∃ ps, List.Forall₂ Piece.Means ps cs ∧
      scanPieces (cs.flatMap escapeChar ++ '\"' :: rest) = some (ps, rest) := by
  induction cs with
  | nil => exact ⟨[], .nil, by simp [scanPieces]⟩
  | cons c cs ih =>
    obtain ⟨ps, hps, hscan⟩ := ih
    obtain ⟨p, hp, hchar⟩ := scanPieces_escapeChar c (cs.flatMap escapeChar ++ '\"' :: rest)
    refine ⟨p :: ps, .cons hp hps, ?_⟩
    rw [List.flatMap_cons, List.append_assoc, hchar, hscan]
    rfl

/-- A code unit that is no half of a pair is a character by itself. -/
theorem joinPieces_unit {n : Nat} (hhigh : isHighHalf n = false) (hlow : isLowHalf n = false)
    (ps : List Piece) : joinPieces (.unit n :: ps) = (joinPieces ps).map (Char.ofNat n :: ·) := by
  rcases ps with _ | ⟨c | m, ps⟩ <;> simp [joinPieces, hhigh, hlow]

/-- Pieces that stand for characters are joined to these. -/
theorem joinPieces_of_means {ps : List Piece} {cs : List Char}
    (h : List.Forall₂ Piece.Means ps cs) : joinPieces ps = some cs := by
  induction h with
  | nil => rfl
  | @cons p c ps cs hp hps ih =>
    cases hp with
    | char => rw [joinPieces, ih]; rfl
    | unit hlt =>
      have hhigh : isHighHalf c.toNat = false := by simp [isHighHalf]; omega
      have hlow : isLowHalf c.toNat = false := by simp [isLowHalf]; omega
      rw [joinPieces_unit hhigh hlow, ih, Char.ofNat_toNat]
      rfl

/-! ### Tokens -/

theorem tokens_nil : tokens [] = [] := by rw [tokens]

theorem tokens_space {c : Char} (h : isSpace c = true) (cs : List Char) :
    tokens (c :: cs) = tokens cs := by
  rw [tokens, if_pos h]

theorem tokens_mark {c : Char} {t : Token} (hspace : isSpace c = false) (h : mark? c = some t)
    (cs : List Char) : tokens (c :: cs) = t :: tokens cs := by
  rw [tokens, if_neg (by simp [hspace])]
  simp only [h]

theorem tokens_long {c : Char} {t : Token} {cs rest : List Char} (hspace : isSpace c = false)
    (hmark : mark? c = none) (h : scanLong (c :: cs) = some (t, rest)) :
    tokens (c :: cs) = t :: tokens rest := by
  rw [tokens, if_neg (by simp [hspace])]
  simp only [hmark]
  split
  next t' rest' h' =>
    obtain ⟨rfl, rfl⟩ := Prod.mk.inj (Option.some.inj (h.symm.trans h'))
    rfl
  next h' => cases h.symm.trans h'

/-- Blanks between tokens are passed over. -/
theorem tokens_spaces {cs : List Char} (h : ∀ c ∈ cs, isSpace c = true) (rest : List Char) :
    tokens (cs ++ rest) = tokens rest := by
  induction cs with
  | nil => rfl
  | cons c cs ih =>
    rw [List.cons_append, tokens_space (h c (List.mem_cons_self ..)),
      ih fun d hd => h d (List.mem_cons_of_mem _ hd)]

theorem tokens_line (depth : Nat) (rest : List Char) :
    tokens (lineChars depth ++ rest) = tokens rest := by
  refine tokens_spaces ?_ rest
  intro c hc
  rcases List.mem_cons.mp hc with rfl | hc
  · rfl
  · rw [(List.mem_replicate.mp hc).2]; rfl

/-- A written string is one token. -/
theorem tokens_string (s : String) (rest : List Char) :
    tokens (stringChars s ++ rest) = .text (some s) :: tokens rest := by
  obtain ⟨ps, hps, hscan⟩ := scanPieces_flatMap s.toList rest
  have hlong : scanLong ('\"' :: (s.toList.flatMap escapeChar ++ '\"' :: rest)) =
      some (.text (some s), rest) := by
    simp only [scanLong, hscan, Option.map_some, joinPieces_of_means hps, String.ofList_toList]
  rw [stringChars, List.cons_append, List.cons_append, List.append_assoc, List.singleton_append]
  exact tokens_long rfl rfl hlong

/-! ### Numbers -/

/-- A text that does not go on with a number. -/
def EndsNumber (cs : List Char) : Prop :=
  ∀ c ∈ cs.head?, c.isDigit = false ∧ c ≠ '.' ∧ c ≠ 'e' ∧ c ≠ 'E'

theorem endsNumber_cons {c : Char} {cs : List Char} :
    EndsNumber (c :: cs) ↔ c.isDigit = false ∧ c ≠ '.' ∧ c ≠ 'e' ∧ c ≠ 'E' := by
  simp [EndsNumber]

theorem EndsNumber.endsDigits {cs : List Char} (h : EndsNumber cs) : EndsDigits cs :=
  fun c hc => (h c hc).1

namespace Numeral

/-- The numeral that an integer is written as. -/
def ofInt (n : Int) : Numeral := ⟨decide (n < 0), decimal n.natAbs, [], none⟩

theorem scanWhole_decimal (n : Nat) {rest : List Char} (h : EndsDigits rest) :
    scanWhole (decimal n ++ rest) = some (decimal n, rest) := by
  obtain ⟨c, cs, hcs, -, hzero⟩ := exists_decimal_eq_cons n
  rw [scanWhole, spanAllDigits_append (isDigit_of_mem_decimal n) h, hcs]
  split
  next heq => cases (Prod.mk.inj heq).1
  next heq =>
    obtain ⟨rfl, rfl⟩ := List.cons.inj (Prod.mk.inj heq).1
    cases hzero rfl
  next heq => rw [← heq]

theorem scanFraction_of_endsNumber {cs : List Char} (h : EndsNumber cs) :
    scanFraction cs = some ([], cs) := by
  unfold scanFraction
  split
  · exact absurd rfl (endsNumber_cons.mp h).2.1
  · rfl

theorem scanExponent_of_endsNumber {cs : List Char} (h : EndsNumber cs) :
    scanExponent cs = some (none, cs) := by
  unfold scanExponent
  split
  · exact absurd rfl (endsNumber_cons.mp h).2.2.1
  · exact absurd rfl (endsNumber_cons.mp h).2.2.2
  · rfl

theorem scanUnsigned_decimal (negative : Bool) (n : Nat) {rest : List Char} (h : EndsNumber rest) :
    scanUnsigned negative (decimal n ++ rest) = some (⟨negative, decimal n, [], none⟩, rest) := by
  simp [scanUnsigned, scanWhole_decimal n h.endsDigits, scanFraction_of_endsNumber h,
    scanExponent_of_endsNumber h]

/-- A written integer is scanned as its numeral. -/
theorem scan_integer (n : Int) {rest : List Char} (h : EndsNumber rest) :
    scan (integer n ++ rest) = some (ofInt n, rest) := by
  unfold integer ofInt
  split
  next hneg => simp only [List.cons_append, scan, scanUnsigned_decimal true _ h, hneg, decide_true]
  next hneg =>
    obtain ⟨c, cs, hcs, hdigit, -⟩ := exists_decimal_eq_cons n.natAbs
    rw [scan, scanUnsigned_decimal false _ h]
    · simp [hneg]
    · rintro cs' heq
      rw [hcs] at heq
      cases (List.cons.inj heq).1
      cases hdigit

end Numeral

/-- A character that a number may start with. -/
def StartsNumber (c : Char) : Prop := c = '-' ∨ c.isDigit = true

theorem StartsNumber.ne {c d : Char} (h : StartsNumber c) (hd : d ≠ '-')
    (hdigit : d.isDigit = false) : c ≠ d := by
  rintro rfl
  rcases h with h | h
  · exact hd h
  · cases hdigit.symm.trans h

/-- Nothing but a number starts with a digit or a minus sign. -/
theorem tokens_number {c : Char} {cs rest : List Char} {n : Numeral} (hc : StartsNumber c)
    (h : Numeral.scan (c :: cs) = some (n, rest)) :
    tokens (c :: cs) = .number n :: tokens rest := by
  have hspace : isSpace c = false := by
    simp [isSpace, hc.ne]
  have hmark : mark? c = none := by
    unfold mark?
    split <;> first | rfl | exact absurd rfl (hc.ne (by decide) (by decide))
  have hword : scanWord (c :: cs) = none := by
    unfold scanWord
    split
    case h_4 => rfl
    all_goals
      next heq => exact absurd (List.cons.inj heq).1 (hc.ne (by decide) (by decide))
  refine tokens_long hspace hmark ?_
  unfold scanLong
  split
  next heq => exact absurd (List.cons.inj heq).1 (hc.ne (by decide) (by decide))
  next => simp only [hword, h, Option.map_some]

/-- A written integer is one token. -/
theorem tokens_integer (n : Int) {rest : List Char} (h : EndsNumber rest) :
    tokens (integer n ++ rest) = .number (.ofInt n) :: tokens rest := by
  have hscan := Numeral.scan_integer n h
  have hstart : ∃ c cs, StartsNumber c ∧ integer n = c :: cs := by
    unfold integer
    split
    · exact ⟨_, _, .inl rfl, rfl⟩
    · obtain ⟨c, cs, hcs, hdigit, -⟩ := exists_decimal_eq_cons n.natAbs
      exact ⟨c, cs, .inr hdigit, hcs⟩
  obtain ⟨c, cs, hc, hcs⟩ := hstart
  rw [hcs, List.cons_append] at hscan ⊢
  exact tokens_number hc hscan

end WallCalendar.Json
