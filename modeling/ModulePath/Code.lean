/-!
# Error codes

The number that an error carries says what kind of thing went wrong.
-/

set_option autoImplicit false

namespace ModulePath

/-- The kind of an error. -/
inductive Code where
  | success
  /-- A path, a rule or a setting is bad. -/
  | invalid
  /-- A directory, a file or a layer is not there. -/
  | notFound
  /-- A directory or a file cannot be read. -/
  | denied
deriving DecidableEq, Repr

namespace Code

/-- The number of a code. -/
def number : Code → Nat
  | success => 0
  | invalid => 1
  | notFound => 2
  | denied => 3

/-- All codes. -/
def all : List Code := [success, invalid, notFound, denied]

/-- The code of a number. -/
def ofNumber? (n : Nat) : Option Code := all.find? fun c => c.number == n

end Code

end ModulePath
