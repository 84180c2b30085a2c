import ModulePath.Fault
import ModulePath.Text.Case
import ModulePath.Value.Basic

/-!
# Log levels

The five levels of a log record, by name and by number.
-/

set_option autoImplicit false

namespace ModulePath.Log

/-- A level. -/
inductive Level where
  | debug
  | info
  | warning
  | error
  | critical
deriving DecidableEq, Repr, Inhabited

namespace Level

/-- The number of a level. -/
def number : Level → Nat
  | debug => 10
  | info => 20
  | warning => 30
  | error => 40
  | critical => 50

/-- The name of a level. -/
def name : Level → String
  | debug => "DEBUG"
  | info => "INFO"
  | warning => "WARNING"
  | error => "ERROR"
  | critical => "CRITICAL"

/-- All levels, from the lowest to the highest. -/
def all : List Level := [debug, info, warning, error, critical]

/-- The level of a name in any case. -/
def ofName? (s : String) : Option Level :=
  all.find? fun l => l.name == Text.upperString s

/-- Whether a record of level `l` passes a logger that is set to `threshold`. -/
def passes (threshold l : Level) : Bool := threshold.number ≤ l.number

/-- The level that a piece of data stands for: a name, or any number equal to that of a level. -/
def ofValue? : Value → Except Fault Level
  | .str s => match ofName? s with
    | some l => .ok l
    | none => .error .missingKey
  | v => match all.find? fun l => Value.keyEq v (.int l.number) with
    | some l => .ok l
    | none => .error .value

end Level

end ModulePath.Log
