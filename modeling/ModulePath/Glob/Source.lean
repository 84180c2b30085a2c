import ModulePath.Glob.Pattern

/-!
# The regular expression of a glob

Every pattern has a source, a regular expression that matches the same paths. Patterns are compared
and reported by their source, so two spellings of one pattern are not told apart.
-/

set_option autoImplicit false

namespace ModulePath.Glob

/-- The characters that are written with a backslash before them. -/
def specialChars : List Char :=
  ['(', ')', '[', ']', '\x7b', '\x7d', '?', '*', '+', '-', '|', '^', '$', '\\', '.', '&', '~', '#',
    ' ', '\t', '\n', '\r', '\x0b', '\x0c']

/-- A literal character in a regular expression. -/
def escape (c : Char) : List Char :=
  if specialChars.contains c then ['\\', c] else [c]

/-- The regular expression of an atom. -/
def Atom.source : Atom → List Char
  | .anything => ['.', '*']
  | .segment => ['[', '^', '/', ']', '*']
  | .one => ['[', '^', '/', ']']
  | .separator => ['/', '+']
  | .char c => escape c

/-- The regular expression of the tail. -/
def tailSource (descendantsOnly : Bool) : List Char :=
  if descendantsOnly then ['.', '*'] else ['(', '?', ':', '/', '.', '*', ')', '?']

/-- The regular expression of a pattern. -/
def Pattern.source (p : Pattern) : String :=
  String.ofList (p.atoms.flatMap Atom.source ++ tailSource p.descendantsOnly)

end ModulePath.Glob
