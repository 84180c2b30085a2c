import ModulePath.Text.CaseTable
import ModulePath.Text.Quoted

/-!
# Upper and lower case

Full case maps of a text: a character may become several, and a capital sigma at the end of a word
becomes the final form of the letter.
-/

set_option autoImplicit false

namespace ModulePath.Text

/-- The image of a code point under a table of shifts and a table of expansions. -/
def mapCase (shifts : List Shift) (expansions : List (Nat × List Nat)) (n : Nat) : List Char :=
  match shifts.find? (·.covers n) with
  | some s => [Char.ofNat (Int.toNat (n + s.delta))]
  | none =>
    match expansions.find? (·.1 == n) with
    | some e => e.2.map Char.ofNat
    | none => [Char.ofNat n]

/-- Upper case of one character. -/
def upperChar (c : Char) : List Char :=
  let n := c.toNat
  if n < 0x80 then [c.toUpper] else mapCase upperShifts upperExpansions n

/-- Lower case of one character outside any word. -/
def lowerChar (c : Char) : List Char :=
  let n := c.toNat
  if n < 0x80 then [c.toLower] else mapCase lowerShifts lowerExpansions n

/-- Upper case of a text. -/
def upper (cs : List Char) : List Char :=
  cs.flatMap upperChar

/-! ## The final sigma -/

/-- A character that has a case. -/
def isCased (c : Char) : Bool :=
  let n := c.toNat
  if n < 0x80 then c.isAlpha else inRanges casedRanges n

/-- A character that is passed over when the neighbours of a sigma are looked for. -/
def isCaseIgnorable (c : Char) : Bool :=
  let n := c.toNat
  if n < 0x80 then n == 0x27 || n == 0x2E || n == 0x3A || n == 0x5E || n == 0x60
  else inRanges caseIgnorableRanges n

/-- Whether the first character that is not passed over has a case. -/
def nextIsCased (cs : List Char) : Bool :=
  match cs.dropWhile isCaseIgnorable with
  | [] => false
  | c :: _ => isCased c

/-- Lower case of a text whose characters before it are `before`, the nearest first. -/
def lowerAfter (before : List Char) : List Char → List Char
  | [] => []
  | c :: rest =>
    let image :=
      if c = 'Σ' then
        [if nextIsCased before && !nextIsCased rest then 'ς' else 'σ']
      else lowerChar c
    image ++ lowerAfter (c :: before) rest

/-- Lower case of a text. -/
def lower (cs : List Char) : List Char :=
  lowerAfter [] cs

/-- Upper case of a string. -/
def upperString (s : String) : String := String.ofList (upper s.toList)

/-- Lower case of a string. -/
def lowerString (s : String) : String := String.ofList (lower s.toList)

end ModulePath.Text
