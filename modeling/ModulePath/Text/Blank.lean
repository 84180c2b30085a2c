/-!
# Blanks and lines

Which characters are blank, how a text loses the blanks around it (`trim`) and how it falls into
lines (`splitLines`). A carriage return with the line feed after it ends one line, and the text
after the last line break is a line only if it is not empty.
-/

set_option autoImplicit false

namespace ModulePath.Text

/-- A character that separates words: the ASCII blanks, the information separators, the next-line
control and the space separators, the line separator and the paragraph separator. -/
def isBlank (c : Char) : Bool :=
  let n := c.toNat
  (0x09 ≤ n && n ≤ 0x0D) || (0x1C ≤ n && n ≤ 0x20) || n == 0x85 || n == 0xA0 || n == 0x1680 ||
    (0x2000 ≤ n && n ≤ 0x200A) || n == 0x2028 || n == 0x2029 || n == 0x202F || n == 0x205F ||
    n == 0x3000

/-- A character that ends a line. -/
def isLineBreak (c : Char) : Bool :=
  let n := c.toNat
  (0x0A ≤ n && n ≤ 0x0D) || (0x1C ≤ n && n ≤ 0x1E) || n == 0x85 || n == 0x2028 || n == 0x2029

/-! ## Trimming -/

section

variable {α : Type}

/-- `xs` without the longest end of it whose members all satisfy `p`. -/
def dropEndWhile (p : α → Bool) : List α → List α
  | [] => []
  | x :: xs =>
    match dropEndWhile p xs with
    | [] => if p x then [] else [x]
    | y :: ys => x :: y :: ys

end

/-- A text without the blanks at its two ends. -/
def trim (cs : List Char) : List Char :=
  dropEndWhile isBlank (cs.dropWhile isBlank)

/-! ## Lines -/

/-- The lines of a text, without the line breaks that end them. -/
def splitLines : List Char → List (List Char)
  | [] => []
  | '\r' :: '\n' :: rest => [] :: splitLines rest
  | c :: rest =>
    if isLineBreak c then [] :: splitLines rest
    else
      match splitLines rest with
      | [] => [[c]]
      | line :: lines => (c :: line) :: lines

/-- A text cut at every occurrence of `sep`: one piece more than there are separators. -/
def splitAt (sep : Char) : List Char → List (List Char)
  | [] => [[]]
  | c :: rest =>
    if c = sep then [] :: splitAt sep rest
    else
      match splitAt sep rest with
      | [] => [[c]]
      | piece :: pieces => (c :: piece) :: pieces

/-- The pieces put together again with `sep` between neighbours. -/
def joinWith (sep : List Char) : List (List Char) → List Char
  | [] => []
  | [piece] => piece
  | piece :: pieces => piece ++ sep ++ joinWith sep pieces

end ModulePath.Text
