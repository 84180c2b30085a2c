/-!
# Faults and failures

Loosely typed data can be used in a way that its kind does not allow. Such a use is a `Fault`; it
is no answer of the operation that meets it. An operation that also refuses data for causes it names
ends in a `Failure`: one of its causes, or a fault.

A fault has no text of its own, but for one: a number that is too long to be written is met where
a text was to say something about it, and what is said instead is part of how the operation ends.
-/

set_option autoImplicit false

namespace ModulePath

/-- A use of data that its kind does not allow. -/
inductive Fault where
  /-- The operation is not defined for data of this kind. -/
  | kind
  /-- A key that is not there. -/
  | missingKey
  /-- An attribute that is not there. -/
  | missingAttribute
  /-- A value outside the range of the operation. -/
  | value
  /-- Bytes that are no text. -/
  | encoding
  /-- A file that is not there. -/
  | missingFile
  /-- A directory in the place of a file. -/
  | directory
  /-- A part of a path that is no directory. -/
  | notDirectory
  /-- A path that the system cannot follow. -/
  | system
  /-- A home directory that is not known. -/
  | home
  /-- A number that is too large. -/
  | overflow
  /-- A number that is written and has too many digits for it. -/
  | digits
  /-- Data that are nested too deeply. -/
  | depth
deriving DecidableEq, Repr

namespace Fault

/-- What is said in place of a number that has too many digits. -/
def digitsText : String :=
  "Exceeds the limit (4300 digits) for integer string conversion; " ++
    "use sys.set_int_max_str_digits() to increase the limit"

/-- The text of a fault, if it has one. -/
def text? : Fault → Option String
  | digits => some digitsText
  | _ => none

end Fault

/-- How an operation ends that gives no answer. -/
inductive Failure (ε : Type) where
  /-- The operation refuses its input for a cause of its own. -/
  | refused (cause : ε)
  /-- The operation meets a fault. -/
  | fault (f : Fault)
deriving DecidableEq, Repr

namespace Failure

variable {ε δ : Type}

/-- Carry the cause over into another operation. -/
def map (g : ε → δ) : Failure ε → Failure δ
  | refused cause => .refused (g cause)
  | fault f => .fault f

end Failure

/-- The answer of an operation on loosely typed data. -/
abbrev Outcome (ε α : Type) := Except (Failure ε) α

namespace Outcome

variable {ε δ α : Type}

/-- Refuse for a cause. -/
def refuse (cause : ε) : Outcome ε α := .error (.refused cause)

/-- End in a fault. -/
def fault (f : Fault) : Outcome ε α := .error (.fault f)

/-- Carry the causes over into another operation. -/
def mapCause (g : ε → δ) : Outcome ε α → Outcome δ α
  | .ok a => .ok a
  | .error e => .error (e.map g)

end Outcome

end ModulePath
