/-!
# Text files

The text that the bytes of a file stand for: they are UTF-8, and however a line ends, the text has a
line feed there.
-/

set_option autoImplicit false

namespace ModulePath.Text

/-- A text with a line feed at the end of every line: a carriage return, with or without the line
feed after it, becomes one. -/
def unifyLineEnds : List Char → List Char
  | [] => []
  | '\r' :: '\n' :: rest => '\n' :: unifyLineEnds rest
  | '\r' :: rest => '\n' :: unifyLineEnds rest
  | c :: rest => c :: unifyLineEnds rest

/-- The text of a file; `none` if the bytes are no text. -/
def decode? (bytes : ByteArray) : Option String :=
  (String.fromUTF8? bytes).map fun s => String.ofList (unifyLineEnds s.toList)

end ModulePath.Text
