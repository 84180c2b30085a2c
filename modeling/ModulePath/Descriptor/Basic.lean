import ModulePath.Rule.Basic
import ModulePath.Value.Basic

/-!
# Module descriptors

What a module says about itself: its name, the rules for what it exports, and its dependencies on
other modules and on the platform, in order.
-/

set_option autoImplicit false

namespace ModulePath

/-- How the service declarations of a dependency are treated. -/
inductive Services where
  /-- They are neither seen nor passed on. -/
  | hidden
  /-- They are seen. -/
  | visible
  /-- They are seen and passed on. -/
  | reexported
deriving DecidableEq, Repr, Inhabited

namespace Services

/-- The mode in a descriptor. -/
def text : Services → String
  | hidden => "none"
  | visible => "import"
  | reexported => "export"

/-- Read a mode. -/
def ofText? (s : String) : Option Services :=
  [hidden, visible, reexported].find? fun m => m.text == s

/-- Read a mode from loose data. -/
def ofValue? : Value → Option Services
  | .str s => ofText? s
  | _ => none

end Services

/-- A dependency on another module. -/
structure ModuleDependency where
  /-- The name of the other module. -/
  target : String
  /-- Whether paths that no rule applies to are passed on. -/
  reexport : Bool := false
  /-- Whether the other module may be missing. -/
  optional : Bool := false
  services : Services := .hidden
  importRules : List Rule := []
  exportRules : List Rule := []
deriving DecidableEq

/-- A dependency on the platform, which offers a fixed set of paths. -/
structure PlatformDependency where
  paths : TextSet := .empty
  reexport : Bool := false
  exportRules : List Rule := []
deriving DecidableEq

/-- A dependency. -/
inductive Dependency where
  | onModule (d : ModuleDependency)
  | onPlatform (d : PlatformDependency)
deriving DecidableEq

/-- A module descriptor. -/
structure Descriptor where
  name : String
  exportRules : List Rule := []
  dependencies : List Dependency := []
deriving DecidableEq

end ModulePath
