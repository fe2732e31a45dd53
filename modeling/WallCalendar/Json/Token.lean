import WallCalendar.Json.Numeral

/-!
Tokens of a JSON text.

A text is cut into tokens from left to right. Where no token can be read a `bad` token ends the
list. A string is decoded as it is read; if it holds half of a surrogate pair it is still a token,
but one that names no text.
-/

namespace WallCalendar.Json

open WallCalendar.Text

/-- A word of a JSON text. -/
inductive Token where
  | openBrace
  | closeBrace
  | openBracket
  | closeBracket
  | colon
  | comma
  | null
  | bool (b : Bool)
  | number (n : Numeral)
  /-- A string; none if it holds half of a surrogate pair. -/
  | text (s : Option String)
  /-- What follows is no token. -/
  | bad
  deriving DecidableEq, Repr

/-! ### Strings -/

/-- One item between the quotes of a string: a character, or a code unit given by number. -/
inductive Piece where
  | char (c : Char)
  | unit (n : Nat)
  deriving DecidableEq, Repr

/-- The value of a hexadecimal digit of either case. -/
def hexValue? (c : Char) : Option Nat :=
  if c.isDigit then some (c.toNat - 0x30)
  else if 'a' ≤ c ∧ c ≤ 'f' then some (c.toNat - 0x61 + 10)
  else if 'A' ≤ c ∧ c ≤ 'F' then some (c.toNat - 0x41 + 10)
  else none

/-- The value of four hexadecimal digits. -/
def hexUnit? (a b c d : Char) : Option Nat := do
  let a ← hexValue? a
  let b ← hexValue? b
  let c ← hexValue? c
  let d ← hexValue? d
  return 4096 * a + 256 * b + 16 * c + d

/-- The character that a one-letter escape stands for. -/
def shortEscape? : Char → Option Char
  | '\"' => some '\"'
  | '\\' => some '\\'
  | '/' => some '/'
  | 'b' => some '\x08'
  | 'f' => some '\x0c'
  | 'n' => some '\n'
  | 'r' => some '\r'
  | 't' => some '\t'
  | _ => none

/-- The pieces up to the closing quote, and what follows it. Controls must be escaped. -/
def scanPieces : List Char → Option (List Piece × List Char)
  | [] => none
  | '\"' :: cs => some ([], cs)
  | '\\' :: 'u' :: a :: b :: c :: d :: cs => do
    let n ← hexUnit? a b c d
    let (pieces, rest) ← scanPieces cs
    return (.unit n :: pieces, rest)
  | '\\' :: e :: cs => do
    let c ← shortEscape? e
    let (pieces, rest) ← scanPieces cs
    return (.char c :: pieces, rest)
  | c :: cs =>
    if c = '\\' ∨ c.toNat < 0x20 then none
    else do
      let (pieces, rest) ← scanPieces cs
      return (.char c :: pieces, rest)

theorem length_of_scanPieces {cs rest : List Char} {pieces : List Piece}
    (h : scanPieces cs = some (pieces, rest)) : rest.length < cs.length := by
  fun_induction scanPieces cs generalizing pieces rest with
  | case1 => simp at h
  | case2 cs =>
    obtain ⟨_, rfl⟩ : pieces = [] ∧ cs = rest := by simpa [eq_comm] using h
    simp
  | case3 a b c d cs ih =>
    simp only [Option.bind_eq_bind, Option.bind_eq_some_iff] at h
    obtain ⟨_, _, ⟨_, r⟩, hr, h⟩ := h
    obtain ⟨_, rfl⟩ : _ ∧ r = rest := by simpa using h
    have := ih hr
    simp only [List.length_cons]
    omega
  | case4 e cs _ ih =>
    simp only [Option.bind_eq_bind, Option.bind_eq_some_iff] at h
    obtain ⟨_, _, ⟨_, r⟩, hr, h⟩ := h
    obtain ⟨_, rfl⟩ : _ ∧ r = rest := by simpa using h
    have := ih hr
    simp only [List.length_cons]
    omega
  | case5 => simp at h
  | case6 c cs _ _ _ _ ih =>
    simp only [Option.bind_eq_bind, Option.bind_eq_some_iff] at h
    obtain ⟨⟨_, r⟩, hr, h⟩ := h
    obtain ⟨_, rfl⟩ : _ ∧ r = rest := by simpa using h
    have := ih hr
    simp only [List.length_cons]
    omega

/-- Whether a code unit is the first half of a pair. -/
def isHighHalf (n : Nat) : Bool := 0xD800 ≤ n && n ≤ 0xDBFF

/-- Whether a code unit is the second half of a pair. -/
def isLowHalf (n : Nat) : Bool := 0xDC00 ≤ n && n ≤ 0xDFFF

/-- The characters of pieces, halves joined to pairs; none if a half stands alone. -/
def joinPieces : List Piece → Option (List Char)
  | [] => some []
  | .char c :: ps => (joinPieces ps).map (c :: ·)
  | .unit n :: .unit m :: ps =>
    if isHighHalf n then
      if isLowHalf m then
        (joinPieces ps).map (Char.ofNat (0x10000 + 0x400 * (n - 0xD800) + (m - 0xDC00)) :: ·)
      else none
    else if isLowHalf n then none
    else (joinPieces (.unit m :: ps)).map (Char.ofNat n :: ·)
  | .unit n :: ps =>
    if isHighHalf n || isLowHalf n then none else (joinPieces ps).map (Char.ofNat n :: ·)

/-! ### Tokens -/

/-- Whether `c` may stand between tokens. -/
def isSpace (c : Char) : Bool := c == ' ' || c == '\n' || c == '\t' || c == '\r'

/-- A word at the front of a text. -/
def scanWord : List Char → Option (Token × List Char)
  | 'n' :: 'u' :: 'l' :: 'l' :: cs => some (.null, cs)
  | 't' :: 'r' :: 'u' :: 'e' :: cs => some (.bool true, cs)
  | 'f' :: 'a' :: 'l' :: 's' :: 'e' :: cs => some (.bool false, cs)
  | _ => none

/-- A string, word or number at the front of a text. -/
def scanLong (cs : List Char) : Option (Token × List Char) :=
  match cs with
  | '\"' :: rest =>
    (scanPieces rest).map fun (pieces, rest) =>
      (.text ((joinPieces pieces).map String.ofList), rest)
  | _ =>
    match scanWord cs with
    | some found => some found
    | none => (Numeral.scan cs).map fun (n, rest) => (.number n, rest)

theorem length_of_scanWord {cs rest : List Char} {token : Token}
    (h : scanWord cs = some (token, rest)) : rest.length < cs.length := by
  unfold scanWord at h
  split at h <;> simp_all <;> omega

theorem length_of_scanLong {cs rest : List Char} {token : Token}
    (h : scanLong cs = some (token, rest)) : rest.length < cs.length := by
  unfold scanLong at h
  split at h
  · obtain ⟨⟨_, r⟩, hr, heq⟩ := Option.map_eq_some_iff.1 h
    obtain ⟨_, rfl⟩ := Prod.mk.inj heq
    have := length_of_scanPieces hr
    simp only [List.length_cons]
    omega
  · split at h
    · rename_i hw
      exact length_of_scanWord (hw.trans h)
    · obtain ⟨⟨_, r⟩, hr, heq⟩ := Option.map_eq_some_iff.1 h
      obtain ⟨_, rfl⟩ := Prod.mk.inj heq
      exact Numeral.length_of_scan hr

/-- The mark of punctuation that `c` is. -/
def mark? : Char → Option Token
  | '\x7b' => some .openBrace
  | '\x7d' => some .closeBrace
  | '[' => some .openBracket
  | ']' => some .closeBracket
  | ':' => some .colon
  | ',' => some .comma
  | _ => none

/-- The tokens of a text. -/
def tokens (cs : List Char) : List Token :=
  match cs with
  | [] => []
  | c :: rest =>
    if isSpace c then tokens rest
    else
      match mark? c with
      | some token => token :: tokens rest
      | none =>
        match _scanned : scanLong (c :: rest) with
        | some (token, after) => token :: tokens after
        | none => [.bad]
termination_by cs.length
decreasing_by
  · simp
  · simp
  · exact length_of_scanLong _scanned

end WallCalendar.Json
