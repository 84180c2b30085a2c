import ModulePath.Fault
import ModulePath.Log.Level
import ModulePath.Path.Valid
import ModulePath.Text.Order
import ModulePath.Value.Text

/-!
# Valid configurations

A configuration is a dictionary with the sections `layers`, `cache` and `logging`, each of which may
be missing. The sections stand under the key `modfilter`, or at the top if that key is missing.
`check` finds the first fault: sections in the order above, and in a section the shape before the
field names before the fields.
-/

set_option autoImplicit false

namespace ModulePath.Config

/-- The entries of a dictionary. -/
abbrev Entries := List (Value × Value)

/-- The key that the sections stand under. -/
def rootKey : String := "modfilter"

/-- A section. -/
inductive Section where
  | layers
  | cache
  | logging
deriving DecidableEq, Repr

namespace Section

/-- The key of a section. -/
def key : Section → String
  | layers => "layers"
  | cache => "cache"
  | logging => "logging"

/-- A section at the beginning of a message. -/
def title : Section → String
  | layers => "Layers"
  | cache => "Cache"
  | logging => "Logging"

end Section

/-! ## Faults -/

/-- What is wrong with a configuration. -/
inductive Invalid where
  | shape
  | rootShape
  | sectionShape (s : Section)
  | unknownFields (s : Section) (names : List String)
  | layersPath (field : String) (fault : PathFault)
  | layersName (field : String) (fault : NameFault)
  | cacheEnabled (v : Value)
  | cacheSize (v : Value)
  | logLevel (v : Value)
  | logFile (v : Value)

/-- The text of a fault. -/
def Invalid.message : Invalid → String
  | shape => "Configuration must be a dictionary"
  | rootShape => "'" ++ rootKey ++ "' section must be a dictionary"
  | sectionShape s => s.title ++ " configuration must be a dictionary"
  | unknownFields s names =>
    "Unknown " ++ s.key ++ " configuration fields: " ++ Value.commaSeparated names
  | layersPath field fault => "Invalid layers " ++ field ++ ": " ++ fault.message
  | layersName field fault => "Invalid layers " ++ field ++ ": " ++ fault.message
  | cacheEnabled v => "Cache enabled must be boolean: " ++ v.display
  | cacheSize v => "Cache max_patterns must be positive integer: " ++ v.display
  | logLevel v => "Invalid log level: " ++ v.display
  | logFile v => "Log file must be a string: " ++ v.display

/-- The data in the text of a fault. -/
def Invalid.data? : Invalid → Option Value
  | cacheEnabled v | cacheSize v | logLevel v | logFile v => some v
  | _ => none

/-- Refuse a configuration. A fault with data that cannot be written is none of the causes. -/
def refuse {α : Type} (fault : Invalid) : Outcome Invalid α :=
  if fault.data?.all Value.hasText then Outcome.refuse fault else Outcome.fault .digits

/-! ## Fields -/

/-- The text of a key. -/
def text? : Value → Option String
  | .str s => some s
  | _ => none

/-- Refuse fields that are not among the allowed ones. -/
def checkFields (s : Section) (allowed : List String) (entries : Entries) :
    Outcome Invalid Unit :=
  let unknown := (entries.map (·.1)).filter fun k =>
    !allowed.any fun a => Value.keyEq k (.str a)
  match unknown.mapM text? with
  | none => Outcome.fault .kind
  | some [] => .ok ()
  | some names => refuse (.unknownFields s (Text.sort names))

/-- Check a field if it is there. -/
def checkField (entries : Entries) (field : String) (p : Value → Option Invalid) :
    Outcome Invalid Unit :=
  match (Value.field? field entries).bind p with
  | some fault => refuse fault
  | none => .ok ()

/-- What is wrong with a directory of the layout. -/
def layersPathFault? (field : String) (v : Value) : Option Invalid :=
  match relativePath? v with
  | .ok _ => none
  | .error f => some (.layersPath field f)

/-- What is wrong with a name of the layout. -/
def layersNameFault? (field : String) (v : Value) : Option Invalid :=
  match layerName? v with
  | .ok _ => none
  | .error f => some (.layersName field f)

/-- The pattern cache is on or off. -/
def cacheEnabledFault? : Value → Option Invalid
  | .bool _ => none
  | v => some (.cacheEnabled v)

/-- The size of the pattern cache is a positive integer. -/
def cacheSizeFault? : Value → Option Invalid
  | .int n => if 0 < n then none else some (.cacheSize (.int n))
  | v => some (.cacheSize v)

/-- The log level is the name of a level, or nothing. -/
def logLevelFault? : Value → Option Invalid
  | .null => none
  | .str s => if (Log.Level.ofName? s).isSome then none else some (.logLevel (.str s))
  | v => some (.logLevel v)

/-- The log file is a text, or nothing. -/
def logFileFault? : Value → Option Invalid
  | .null => none
  | .str _ => none
  | v => some (.logFile v)

/-! ## Sections -/

/-- Check the layout of layered modules. -/
def checkLayers : Value → Outcome Invalid Unit
  | .dict entries => do
    checkFields .layers ["config_file", "layers_path", "add_ons_path", "overlays_dir"] entries
    checkField entries "layers_path" (layersPathFault? "layers_path")
    checkField entries "add_ons_path" (layersPathFault? "add_ons_path")
    checkField entries "config_file" (layersNameFault? "config_file")
    checkField entries "overlays_dir" (layersNameFault? "overlays_dir")
  | _ => refuse (.sectionShape .layers)

/-- Check the settings of the pattern cache. -/
def checkCache : Value → Outcome Invalid Unit
  | .dict entries => do
    checkFields .cache ["enabled", "max_patterns"] entries
    checkField entries "enabled" cacheEnabledFault?
    checkField entries "max_patterns" cacheSizeFault?
  | _ => refuse (.sectionShape .cache)

/-- Check the settings of the log. Other fields are allowed. -/
def checkLogging : Value → Outcome Invalid Unit
  | .dict entries => do
    checkField entries "level" logLevelFault?
    checkField entries "file" logFileFault?
  | _ => refuse (.sectionShape .logging)

/-- The check of a section. -/
def checkSection : Section → Value → Outcome Invalid Unit
  | .layers => checkLayers
  | .cache => checkCache
  | .logging => checkLogging

/-- Check a section if it is there. -/
def checkSectionOf (entries : Entries) (s : Section) : Outcome Invalid Unit :=
  match Value.field? s.key entries with
  | some v => checkSection s v
  | none => .ok ()

/-- Check a configuration. -/
def check : Value → Outcome Invalid Unit
  | .dict entries =>
    match (Value.field? rootKey entries).getD (.dict entries) with
    | .dict sections => do
      checkSectionOf sections .layers
      checkSectionOf sections .cache
      checkSectionOf sections .logging
    | _ => refuse .rootShape
  | _ => refuse .shape

end ModulePath.Config
