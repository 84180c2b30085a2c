import ModulePath.FileSystem.Basic
import ModulePath.Value.Basic

/-!
# Readers of YAML documents

Descriptors and configurations are written in YAML, and a library reads the data that a document
stands for. Nothing is said here about which documents there are, nor which data one stands for: a
reader gives the data of what a file holds, refuses what is no document, or meets a fault. What is
asked of it is that a mapping is given as a dictionary, in which no key stands twice, however often
the document names it.
-/

set_option autoImplicit false

namespace ModulePath.Yaml

/-- A reader of YAML documents. -/
structure Reader where
  /-- The data of the document that a file holds. -/
  read : Content → Outcome Unit Value
  wellKeyed {c : Content} {v : Value} : read c = .ok v → v.WellKeyed

end ModulePath.Yaml
