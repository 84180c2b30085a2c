import ModulePath.Program.Basic
import ModulePath.Path.Valid

/-!
# The layer configuration file

The file consists of properties, one a line: a key, and after `=`, `:` or blanks a value. Blank
lines and lines that begin with `#` or `!` do not count, and a later value of a key replaces an
earlier one. The layers are a list of names, to which `base` is appended if it is not among them.
-/

set_option autoImplicit false

namespace ModulePath.Layers

/-! ## Properties -/

/-- Keys with their values, in order. -/
abbrev Properties := List (String × String)

namespace Properties

/-- Whether a key ends at a character. -/
def endsKey (c : Char) : Bool := c = '=' || c = ':' || Text.isBlank c

/-- What follows the separator between key and value. -/
def dropSeparator : List Char → List Char
  | [] => []
  | c :: rest =>
    if c = '=' || c = ':' then rest.dropWhile Text.isBlank else c :: rest

/-- The key and the value of a line without blanks around it. -/
def entryOf (line : List Char) : String × String :=
  let key := line.takeWhile fun c => !endsKey c
  let rest := line.dropWhile fun c => !endsKey c
  (String.ofList key, String.ofList (dropSeparator (rest.dropWhile Text.isBlank)))

/-- Whether a line without blanks around it has a property. -/
def isEntry : List Char → Bool
  | [] => false
  | c :: _ => c ≠ '#' && c ≠ '!'

/-- Give a key a value: one that is there keeps its place. -/
def put (key value : String) : Properties → Properties
  | [] => [(key, value)]
  | e :: rest => if e.1 = key then (key, value) :: rest else e :: put key value rest

/-- The properties of a text. -/
def ofText (s : String) : Properties :=
  (((Text.splitLines s.toList).map Text.trim).filter isEntry).foldl
    (fun ps line => put (entryOf line).1 (entryOf line).2 ps) []

/-- The value of a key. -/
def get? (key : String) (ps : Properties) : Option String :=
  (ps.find? fun e => e.1 = key).map (·.2)

/-- The value of a key, if it is not empty. -/
def nonEmpty? (key : String) (ps : Properties) : Option String :=
  (get? key ps).filter fun v => !v.isEmpty

end Properties

/-! ## Layer names -/

/-- The layer that every module has. -/
def baseLayer : String := "base"

/-- The logger of layered modules. -/
def loggerName : String := "modfilter.layers"

/-- Log an entry. -/
def logEntry {ε : Type} (e : Log.Entry) : Program ε Unit := .note (.ofEntry loggerName [] e)

/-- The entry that a repeated name logs. -/
def duplicateEntry (name : String) : Log.Entry :=
  ⟨.warning, "Ignoring duplicate layer", [("layer", .str name)]⟩

/-- Add the names of a list, each at its first place. -/
def addNames (names : List String) : List String → Program NameFault (List String)
  | [] => pure names
  | name :: rest =>
    match nameFault? name with
    | some f => .refuse f
    | none =>
      if names.contains name then do
        logEntry (duplicateEntry name)
        addNames names rest
      else addNames (names ++ [name]) rest

/-- The entries of a list of names that are not blank. -/
def nameEntries (s : String) : List String :=
  (((Text.splitAt ',' s.toList).map Text.trim).filter fun cs => !cs.isEmpty).map String.ofList

/-- Names with the base layer among them, last if it was not. -/
def withBase (names : List String) : List String :=
  if names.contains baseLayer then names else names ++ [baseLayer]

/-- The layers of a list of names; nothing is the base layer alone. -/
def layerNames (s : Option String) : Program NameFault (List String) := do
  return withBase (← addNames [] (nameEntries (s.getD "")))

/-! ## The file -/

/-- What the file says. -/
structure Conf where
  layers : List String
  /-- The directory of layers, if the file names one. -/
  layersPath : Option String
  /-- The directory of add-ons, if the file names one. -/
  addOnsPath : Option String

namespace Conf

/-- What is wrong with a file. -/
inductive Fault where
  | path (f : PathFault)
  | name (f : NameFault)
deriving DecidableEq

/-- The text of a fault. -/
def Fault.message : Fault → String
  | path f => f.message
  | name f => f.message

/-- Check a directory that the file names. -/
def checkPath (p : Option String) : Program Fault Unit :=
  match p.bind relativePathFault? with
  | some f => .refuse (.path f)
  | none => pure ()

/-- Read a file. The directories are checked before the names. -/
def ofText (s : String) : Program Fault Conf := do
  let ps := Properties.ofText s
  let layersPath := ps.nonEmpty? "layers.path"
  let addOnsPath := ps.nonEmpty? "add-ons.path"
  checkPath layersPath
  checkPath addOnsPath
  let layers ← (layerNames (ps.get? "layers")).mapCause .name
  return { layers, layersPath, addOnsPath }

end Conf

end ModulePath.Layers
