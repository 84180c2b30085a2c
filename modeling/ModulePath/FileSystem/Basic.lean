import ModulePath.Fault
import ModulePath.Path.Basic
import ModulePath.Text.Decode

/-!
# File systems

What can be asked about the paths of a file system. Listing a directory and reading a file can fail
with a reason.
-/

set_option autoImplicit false

namespace ModulePath

/-- What a file holds: a text, or bytes that may be none. -/
inductive Content where
  | text (s : String)
  | bytes (b : ByteArray)

/-- The text of a file: a text as it is, bytes as a text file. -/
def Content.text? : Content → Except Fault String
  | text s => .ok s
  | bytes b =>
    match Text.decode? b with
    | some s => .ok s
    | none => .error .encoding

/-- The answers of a file system. -/
structure FileSystem where
  /-- Whether there is anything at a path. A path that cannot be looked up is a fault. -/
  presence : Path → Except Fault Bool
  isDirectory : Path → Bool
  isReadable : Path → Bool
  /-- The names of the directories in a directory, in any order. -/
  subdirectories : Path → Except String (List String)
  content : Path → Except String Content

/-- Whether there is anything at a path. -/
def FileSystem.contains (fs : FileSystem) (p : Path) : Bool :=
  match fs.presence p with
  | .ok b => b
  | .error _ => false

end ModulePath
