import ModulePath.Libraries
import ModulePath.Proofs.Yaml.Keys

/-!
# The libraries that come with the program

A reader of YAML documents and a renderer of templates that are written here.
-/

set_option autoImplicit false

namespace ModulePath

/-- The libraries that come with the program. -/
def Libraries.builtIn : Libraries where
  yaml := .builtIn
  templates := .builtIn

end ModulePath
