import ModulePath.Glob.Token

/-!
# Glob patterns

What is left of a glob once its spelling is forgotten: a list of atoms. `Pattern.accepts` says which
paths a pattern matches. A pattern matches more than the text its atoms describe: after the atoms
comes a tail, which is anything when the last atom is a separator, and otherwise nothing or a
separator and anything.

Matching fills a table from the last atom to the first. The row of an atom has one entry for each
suffix of the path, which says whether the atoms from this one on match that suffix, so the work is
the number of atoms times the length of the path.
-/

set_option autoImplicit false

namespace ModulePath.Glob

/-- What one place of a pattern matches. -/
inductive Atom where
  /-- Any text. -/
  | anything
  /-- Any text without a separator. -/
  | segment
  /-- One character other than a separator. -/
  | one
  /-- One or more separators. -/
  | separator
  /-- Exactly this character. -/
  | char (c : Char)
deriving DecidableEq, Repr

/-- The atoms of a token. -/
def Token.atoms : Token → List Atom
  | .anything => [.anything]
  | .segment => [.segment]
  | .one => [.one]
  | .escaped c => [.char c]
  | .separators _ => [.separator]
  | .literal first rest => .char first :: rest.map .char
  | .backslash => [.char '\\']

/-- A compiled glob. -/
structure Pattern where
  atoms : List Atom
deriving DecidableEq, Repr

namespace Pattern

/-- Compile a glob. -/
def ofGlob (glob : String) : Pattern :=
  ⟨(tokens glob.toList).flatMap Token.atoms⟩

/-- Whether the last atom is a separator, so that the pattern matches descendants only. -/
def descendantsOnly (p : Pattern) : Bool :=
  p.atoms.getLast? == some .separator

end Pattern

/-! ## Matching -/

/-- The row of the tail. -/
def tailRow (descendantsOnly : Bool) : List Char → List Bool
  | [] => [true]
  | c :: cs => (descendantsOnly || c == '/') :: tailRow descendantsOnly cs

/-- The row of an atom for a path, from the row of what comes after the atom. -/
def Atom.row (a : Atom) : List Char → List Bool → List Bool
  | [], next =>
    [match a with
      | .anything | .segment => next.headD false
      | _ => false]
  | c :: cs, next =>
    let later := a.row cs next.tail
    let here := next.headD false
    let after := next.tail.headD false
    let again := later.headD false
    (match a with
      | .anything => here || again
      | .segment => here || (c != '/' && again)
      | .one => c != '/' && after
      | .separator => c == '/' && (after || again)
      | .char d => c == d && after) :: later

/-- The row of the first of the atoms. -/
def row (descendantsOnly : Bool) (path : List Char) : List Atom → List Bool
  | [] => tailRow descendantsOnly path
  | a :: atoms => a.row path (row descendantsOnly path atoms)

/-- Whether a pattern matches a whole path. -/
def Pattern.accepts (p : Pattern) (path : String) : Bool :=
  (row p.descendantsOnly path.toList p.atoms).headD false

end ModulePath.Glob
