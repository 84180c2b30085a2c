/-!
# Code points

Numbers from 0 to U+10FFFF name the characters of a text, those from U+D800 to U+DFFF aside: they
are halves of characters. `ofCodePoints` reads a sequence of such numbers as characters, and reads
the numbers of characters back as they were (`ofCodePoints_toNat`).
-/

set_option autoImplicit false

namespace ModulePath.Text

/-- The number after the last code point. -/
def codePointBound : Nat := 0x110000

/-- Whether a code point is the first half of a character. -/
def isHighHalf (n : Nat) : Bool := 0xD800 ≤ n && n < 0xDC00

/-- Whether a code point is the second half of a character. -/
def isLowHalf (n : Nat) : Bool := 0xDC00 ≤ n && n < 0xE000

/-- The character that two halves make. -/
def joinHalves (high low : Nat) : Char :=
  Char.ofNat (0x10000 + 0x400 * (high - 0xD800) + (low - 0xDC00))

/-- The character of a code point. Half of a character by itself gives the replacement character. -/
def ofCodePoint (n : Nat) : Char := if n.isValidChar then Char.ofNat n else '\uFFFD'

/-- The characters of a sequence of code points. -/
def ofCodePoints : List Nat → List Char
  | [] => []
  | [n] => [ofCodePoint n]
  | n :: m :: rest =>
    if isHighHalf n && isLowHalf m then joinHalves n m :: ofCodePoints rest
    else ofCodePoint n :: ofCodePoints (m :: rest)

theorem ofCodePoint_toNat (c : Char) : ofCodePoint c.toNat = c := by
  have h : c.toNat.isValidChar := c.valid
  simp [ofCodePoint, h]

theorem not_isHighHalf_toNat (c : Char) : isHighHalf c.toNat = false := by
  have h : c.toNat.isValidChar := c.valid
  rcases h with h | h <;> simp [isHighHalf] <;> omega

theorem ofCodePoints_toNat (cs : List Char) : ofCodePoints (cs.map Char.toNat) = cs := by
  induction cs with
  | nil => rfl
  | cons c cs ih =>
    cases cs with
    | nil => simp [ofCodePoints, ofCodePoint_toNat]
    | cons d cs =>
      simpa [ofCodePoints, not_isHighHalf_toNat, ofCodePoint_toNat] using ih

end ModulePath.Text
