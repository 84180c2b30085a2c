import ModulePath.Code
import ModulePath.Config.Valid
import ModulePath.Path.Basic

/-!
# Layered configuration

A store holds one tree of data for each source that gave one. Sources are ranked: the tree of a
higher source is laid over those of the lower ones. `get?` looks a dotted key up source by source,
`merged` lays all trees over one another.
-/

set_option autoImplicit false

namespace ModulePath.Config

/-! ## Sources -/

/-- Where a setting comes from, the lowest source first. -/
inductive Source where
  | defaults
  | system
  | user
  | environment
  | arguments
  | runtime
deriving DecidableEq, Repr

namespace Source

/-- All sources, from the lowest to the highest. -/
def ascending : List Source := [defaults, system, user, environment, arguments, runtime]

/-- The name of a source. -/
def text : Source → String
  | defaults => "compiled_defaults"
  | system => "system_config"
  | user => "user_config"
  | environment => "environment"
  | arguments => "cli_args"
  | runtime => "runtime"

end Source

/-! ## Trees -/

/-- The parts of a dotted key. -/
def keyParts (key : String) : List String :=
  (Text.splitAt '.' key.toList).map String.ofList

/-- The value below `v` along a path of text keys. -/
def valueAt? (v : Value) : List String → Option Value
  | [] => some v
  | part :: rest =>
    match v with
    | .dict entries => (Value.field? part entries).bind fun w => valueAt? w rest
    | _ => none

/-- `v` with `x` at the end of a path of text keys, dictionaries being made where the path meets
nothing. A path cannot go on below data that is no dictionary. -/
def assign (x : Value) : List String → Value → Except Fault Value
  | [], _ => .ok x
  | [part], .dict entries => .ok (.dict (Value.put (.str part) x entries))
  | [_], _ => .error .kind
  | part :: rest, .dict entries => do
    let below ← assign x rest ((Value.field? part entries).getD (.dict []))
    return .dict (Value.put (.str part) below entries)
  | _, _ => .error .missingAttribute

mutual
/-- Lay `upper` on a value: where both are dictionaries, entry by entry. -/
def overlay (base : Value) (upper : Value) : Value :=
  match base, upper with
  | .dict entries, .dict more => .dict (overlayAll entries more)
  | _, upper => upper
/-- Lay entries over those of a dictionary: new keys come last. -/
def overlayAll (entries : Entries) : List (Value × Value) → Entries
  | [] => entries
  | (key, v) :: rest =>
    overlayAll
      (Value.put key
        (match Value.lookup key entries with
          | some old => overlay old v
          | none => v)
        entries)
      rest
end

/-! ## Stores -/

/-- A store: the tree of each source that gave one. -/
structure Store where
  tree : Source → Option Entries

namespace Store

/-- The settings that hold when no source says otherwise. -/
def defaultEntries : Entries :=
  [(.str rootKey, .dict [
    (.str "layers", .dict [
      (.str "config_file", .str "layers.conf"),
      (.str "layers_path", .str "layers"),
      (.str "add_ons_path", .str "add-ons"),
      (.str "overlays_dir", .str ".overlays")]),
    (.str "cache", .dict [
      (.str "enabled", .bool true),
      (.str "max_patterns", .int 1024)]),
    (.str "logging", .dict [
      (.str "level", .str "INFO"),
      (.str "file", .null)])])]

/-- The store of the defaults. -/
def initial : Store :=
  ⟨fun s => if s = .defaults then some defaultEntries else none⟩

/-- Give a source a tree. -/
def replace (st : Store) (s : Source) (entries : Entries) : Store :=
  ⟨fun t => if t = s then some entries else st.tree t⟩

/-- Drop the tree of a source; the defaults stay. -/
def clear (st : Store) (s : Source) : Store :=
  ⟨fun t => if t = s && t ≠ .defaults then none else st.tree t⟩

/-- Drop all trees but the defaults. -/
def clearAll (st : Store) : Store :=
  ⟨fun t => if t = .defaults then st.tree t else none⟩

/-! ### Reading -/

/-- The value of a key in one source; nothing counts as no value. -/
def valueIn? (st : Store) (parts : List String) (s : Source) : Option Value :=
  match (st.tree s).bind fun entries => valueAt? (.dict entries) parts with
  | some .null => none
  | v => v

/-- The value of a key and the highest source that has one. -/
def getWithSource? (st : Store) (key : String) : Option (Source × Value) :=
  Source.ascending.reverse.findSome? fun s => (st.valueIn? (keyParts key) s).map (s, ·)

/-- The value of a key. -/
def get? (st : Store) (key : String) : Option Value := (st.getWithSource? key).map (·.2)

/-- All trees laid over one another. -/
def mergedEntries (st : Store) : Entries :=
  (Source.ascending.filterMap st.tree).foldl overlayAll []

/-- All trees laid over one another, as one dictionary. -/
def merged (st : Store) : Value := .dict st.mergedEntries

/-- A member of a collection as the entry of a dictionary: it has to consist of a key and a
value. -/
def entryOf (v : Value) : Except Fault (Value × Value) :=
  match v.items? with
  | none => .error .kind
  | some [key, x] => if key.hashable then .ok (key, x) else .error .kind
  | some _ => .error .value

/-- Data as a dictionary: a collection has to consist of entries. -/
def dictOf : Value → Except Fault Entries
  | .dict entries => .ok entries
  | v =>
    match v.items? with
    | none => .error .kind
    | some items =>
      items.foldlM (fun entries item => do
        let e ← entryOf item
        return Value.put e.1 e.2 entries) []

/-- A merged section. A section that is missing is empty. -/
def section? (st : Store) (name : String) : Except Fault Entries :=
  match (Value.field? rootKey st.mergedEntries).getD (.dict []) with
  | .dict sections => dictOf ((Value.field? name sections).getD (.dict []))
  | _ => .error .missingAttribute

/-! ### Writing -/

/-- Give a key a value in a source. This is what a write comes to if the dictionary that it goes
into stands in no other place; `LiveStore.set` is the write itself. -/
def set (st : Store) (key : String) (v : Value) (s : Source) : Except Fault Store := do
  match ← assign v (keyParts key) (.dict ((st.tree s).getD [])) with
  | .dict entries => return st.replace s entries
  | _ => return st

/-- The tree of a configuration: its sections stand under the root key. -/
def wrap (entries : Entries) : Entries :=
  if Value.hasField rootKey entries then entries else [(.str rootKey, .dict entries)]

end Store

/-! ## Loading -/

/-- Why a configuration is not loaded. -/
inductive Error where
  /-- What comes from `origin` is not valid. -/
  | invalid (origin : String) (fault : Invalid)
  | missingFile (file : String)
  | syntaxError (file : String)
  /-- The path of the file is a directory. -/
  | directory (file : String) (path : Path)
  | unreadable (file : String) (reason : String)
  | notDictionary (file : String)

/-- The text of an error. -/
def Error.message : Error → String
  | invalid origin fault => "Invalid configuration in " ++ origin ++ ": " ++ fault.message
  | missingFile file => "Config file not found: " ++ file
  | syntaxError file => "YAML parse error in " ++ file
  | directory file path =>
    "Error reading config " ++ file ++ ": [Errno 21] Is a directory: " ++ Text.quoted path.text
  | unreadable file reason => "Error reading config " ++ file ++ ": " ++ reason
  | notDictionary file => "Invalid config format in " ++ file

/-- The code of an error. -/
def Error.code : Error → Code
  | missingFile _ => .notFound
  | directory .. | unreadable .. => .denied
  | _ => .invalid

namespace Store

/-- Check data that comes from `origin`. -/
def checkFrom (origin : String) (v : Value) : Outcome Error Unit :=
  Outcome.mapCause (.invalid origin) (check v)

/-- Give a source the tree of data that comes from `origin`. -/
def loadFrom (st : Store) (origin : String) (v : Value) (s : Source) : Outcome Error Store := do
  checkFrom origin v
  match v with
  | .dict entries => return st.replace s (wrap entries)
  | _ => return st

/-- Give a source the tree of a configuration. -/
def load (st : Store) (v : Value) (s : Source) : Outcome Error Store :=
  st.loadFrom s.text v s

/-- Check all trees laid over one another. -/
def validate (st : Store) : Outcome Error Unit := checkFrom "merged configuration" st.merged

end Store

end ModulePath.Config
