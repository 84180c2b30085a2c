import ModulePath.Number.Double
import ModulePath.Text.Blank
import ModulePath.Text.Digit

/-!
# Reading numerals

`integer?` and `real?` read a numeral: blanks around it, a sign, decimal digits of any script with
single underscores between them, for a real also a point and an exponent, or one of the words for
infinity and for what is no number. An integer of more than 4300 digits is refused.
-/

set_option autoImplicit false

namespace ModulePath.Numeral

open ModulePath.Text

/-- The most digits an integer may have. -/
def maxDigits : Nat := 4300

/-- Whether a character may stand before or after a numeral: a blank that is not one of the four
information separators. -/
def isPadding (c : Char) : Bool := isBlank c && !(0x1C ≤ c.toNat && c.toNat ≤ 0x1F)

/-- A numeral without the blanks around it. -/
def strip (cs : List Char) : List Char := dropEndWhile isPadding (cs.dropWhile isPadding)

/-- The sign of a numeral, and what follows it. -/
def splitSign : List Char → Bool × List Char
  | '-' :: rest => (true, rest)
  | '+' :: rest => (false, rest)
  | rest => (false, rest)

/-- Whether a text begins with a digit. -/
def startsWithDigit : List Char → Bool
  | [] => false
  | c :: _ => (digitValue? c).isSome

/-- The digits that go on at the beginning of a text, an underscore before a digit skipped, and what
follows them. -/
def moreDigits : List Char → List Nat × List Char
  | [] => ([], [])
  | c :: rest =>
    match digitValue? c with
    | some d =>
      let (ds, tail) := moreDigits rest
      (d :: ds, tail)
    | none => if c = '_' && startsWithDigit rest then moreDigits rest else ([], c :: rest)

/-- The digits at the beginning of a text, single underscores between them skipped, and what
follows them. -/
def takeDigits (cs : List Char) : List Nat × List Char :=
  if startsWithDigit cs then moreDigits cs else ([], cs)

/-- The number whose decimal digits are given, the first being the highest. -/
def ofDigits (ds : List Nat) : Nat := ds.foldl (fun n d => 10 * n + d) 0

/-- Read an integer. -/
def integer? (s : String) : Option Int :=
  let (negative, body) := splitSign (strip s.toList)
  match takeDigits body with
  | ([], _) => none
  | (ds, []) =>
    if ds.length ≤ maxDigits then
      some (if negative then -(ofDigits ds : Int) else ofDigits ds)
    else none
  | _ => none

/-- Read the exponent at the end of a real: nothing, or `e` and a signed integer. -/
def exponent? : List Char → Option Int
  | [] => some 0
  | e :: rest =>
    if e = 'e' || e = 'E' then
      let (negative, body) := splitSign rest
      match takeDigits body with
      | ([], _) => none
      | (ds, []) => some (if negative then -(ofDigits ds : Int) else ofDigits ds)
      | _ => none
    else none

/-- Read a real without its sign. -/
def unsignedReal? (negative : Bool) (body : List Char) : Option Double :=
  let word := body.map Char.toLower
  if word = ['i', 'n', 'f'] || word = ['i', 'n', 'f', 'i', 'n', 'i', 't', 'y'] then
    some (.infinity negative)
  else if word = ['n', 'a', 'n'] then some .nan
  else
    let (whole, rest) := takeDigits body
    let (fraction, rest) :=
      match rest with
      | '.' :: rest => takeDigits rest
      | _ => ([], rest)
    if whole.isEmpty && fraction.isEmpty then none
    else
      (exponent? rest).map fun e =>
        .ofDecimal negative (ofDigits (whole ++ fraction)) (e - fraction.length)

/-- Read a real. -/
def real? (s : String) : Option Double :=
  let (negative, body) := splitSign (strip s.toList)
  unsignedReal? negative body

end ModulePath.Numeral
