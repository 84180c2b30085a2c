import ModulePath.Code
import ModulePath.Descriptor.Read
import ModulePath.Program.Basic
import ModulePath.Yaml.Reader

/-!
# Descriptor files

A descriptor is read from a YAML file. What is wrong with the descriptor itself is reported with the
name of the file.
-/

set_option autoImplicit false

namespace ModulePath.Descriptor

/-- Why no descriptor is loaded. -/
inductive LoadError where
  | missingFile (file : String)
  | syntaxError (file : String)
  /-- The file is a directory. -/
  | directory (file : String)
  | unreadable (file : String) (reason : String)
  | invalid (file : String) (cause : Error)

/-- The text of an error. -/
def LoadError.message : LoadError → String
  | missingFile file => "Descriptor not found: " ++ file
  | syntaxError file => "YAML parse error in " ++ file
  | directory file =>
    "Error reading descriptor " ++ file ++ ": [Errno 21] Is a directory: " ++
      Text.quoted (Path.ofText file).text
  | unreadable file reason => "Error reading descriptor " ++ file ++ ": " ++ reason
  | invalid file cause => file ++ ": " ++ cause.message

/-- The code of an error. -/
def LoadError.code : LoadError → Code
  | missingFile _ => .notFound
  | directory _ | unreadable .. => .denied
  | _ => .invalid

/-- The data in a descriptor file. -/
def data (yaml : Yaml.Reader) (file : String) : Program LoadError Value := do
  let path := Path.ofText file
  if ← Program.presence? path then
    if ← Program.isDirectory path then .refuse (.directory file)
    else
      let content ← Program.content path (.unreadable file)
      .ofOutcome <| Outcome.mapCause (fun _ => .syntaxError file) (yaml.read content)
  else .refuse (.missingFile file)

/-- Load the descriptor in a file. -/
def load (yaml : Yaml.Reader) (file : String) : Program LoadError Descriptor := do
  let v ← data yaml file
  .ofOutcome (Outcome.mapCause (.invalid file) (ofValue? v))

end ModulePath.Descriptor
