import ModulePath.Fault
import ModulePath.Glob.Source
import ModulePath.Value.Basic

/-!
# Globs from loose data
-/

set_option autoImplicit false

namespace ModulePath.Glob

/-- Why no pattern is made. -/
inductive Error where
  /-- The glob is not given. -/
  | missing
deriving DecidableEq

/-- The text of an error. -/
def Error.message : Error → String
  | missing => "glob is None"

/-- The pattern of a piece of data, which has to be a text. -/
def ofValue? : Value → Outcome Error Pattern
  | .null => Outcome.refuse .missing
  | .str s => .ok (Pattern.ofGlob s)
  | _ => Outcome.fault .kind

end ModulePath.Glob
