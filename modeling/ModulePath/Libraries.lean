import ModulePath.Template.Renderer
import ModulePath.Yaml.Reader

/-!
# Libraries

What the program gets from libraries: a reader of YAML documents, and a renderer of templates.
-/

set_option autoImplicit false

namespace ModulePath

/-- The libraries that the program uses. -/
structure Libraries where
  yaml : Yaml.Reader
  templates : Template.Renderer

end ModulePath
