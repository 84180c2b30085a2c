import ModulePath.Fault

/-!
# YAML characters

The character classes of YAML 1.1, positions in a text, and why a text is no YAML document.
-/

set_option autoImplicit false

namespace ModulePath.Yaml

/-- Why a text is no document. -/
inductive Error where
  /-- A character that no document has. -/
  | unprintable (c : Char)
  /-- A character that begins no token. -/
  | badCharacter (c : Char)
  /-- A key without its value indicator. -/
  | openKey
  /-- An entry, a key or a value where none may begin. -/
  | misplaced
  | unclosedQuote
  | separatorInQuote
  | badEscape
  /-- A token that does not continue the structure. -/
  | unexpectedToken
  | secondDocument
  /-- A key that is a collection. -/
  | collectionKey
  /-- An anchor that names a second node. -/
  | repeatedAnchor (name : String)
  /-- An alias of an anchor that names nothing before it. -/
  | unknownAlias (name : String)
  /-- Tags, directives, block scalars, merge keys and dates are not read, nor are collections that
  hold themselves. -/
  | unsupported
deriving DecidableEq, Repr

/-- Whether a document can have a character. -/
def isPrintable (c : Char) : Bool :=
  let n := c.toNat
  n == 0x09 || n == 0x0A || n == 0x0D || (0x20 ≤ n && n ≤ 0x7E) || n == 0x85 ||
    (0xA0 ≤ n && n ≤ 0xFFFD) || 0x10000 ≤ n

/-- Whether a character ends a line. -/
def isBreak (c : Char) : Bool :=
  c = '\n' || c = '\r' || c = '\u0085' || c = '\u2028' || c = '\u2029'

/-- Whether a character is a space or a tab. -/
def isBlank (c : Char) : Bool := c = ' ' || c = '\t'

/-- Whether a text is at its end, at a blank or at a line break. -/
def atGap : List Char → Bool
  | [] => true
  | c :: _ => isBlank c || isBreak c

/-- Whether a text begins with a document separator, which only counts at the beginning of a
line. -/
def atSeparator : List Char → Bool
  | '-' :: '-' :: '-' :: rest => atGap rest
  | '.' :: '.' :: '.' :: rest => atGap rest
  | _ => false

/-- The line break at the beginning of a text as it counts in a scalar, and what follows it. -/
def lineBreak? : List Char → Option (Char × List Char)
  | '\r' :: '\n' :: rest => some ('\n', rest)
  | c :: rest =>
    if c = '\n' || c = '\r' || c = '\u0085' then some ('\n', rest)
    else if isBreak c then some (c, rest)
    else none
  | [] => none

/-! ## Positions -/

/-- What is left of a text, and where that is. -/
structure Cursor where
  rest : List Char
  index : Nat := 0
  line : Nat := 0
  column : Nat := 0

namespace Cursor

/-- Step over a character. -/
def step (c : Cursor) : Cursor :=
  match c.rest with
  | [] => c
  | ch :: rest =>
    if isBreak ch && !(ch = '\r' && rest.head? == some '\n') then
      ⟨rest, c.index + 1, c.line + 1, 0⟩
    else ⟨rest, c.index + 1, c.line, if ch = '\uFEFF' then c.column else c.column + 1⟩

/-- Step over `n` characters. -/
def advance : Nat → Cursor → Cursor
  | 0, c => c
  | n + 1, c => advance n c.step

/-- Step to the end `rest` of the text that is left. -/
def moveTo (rest : List Char) (c : Cursor) : Cursor := c.advance (c.rest.length - rest.length)

end Cursor

end ModulePath.Yaml
