import ModulePath.Layers.Conf
import ModulePath.Layers.Error
import ModulePath.Layers.Layout
import ModulePath.Text.Order

/-!
# The search path of layered modules

The search path of a root is the root, its layers and its add-ons, every layer and add-on after its
overlays. The layers are those of the configuration file of the root; without such a file they are
the directories of layers in order, the base layer last. The first thing that is wrong ends the
whole computation.
-/

set_option autoImplicit false

namespace ModulePath.Layers

/-- A program on layered modules. -/
abbrev Search := Program Error

/-- End with an error about a path. -/
def stop {α : Type} (cause : Cause) (p : Path) : Search α := .refuse ⟨cause, some p.text⟩

/-- A path in a log entry. -/
def pathField (key : String) (p : Path) : String × Value := (key, .str p.text)

/-! ## Overlays -/

/-- The name in a line of the registration: tabs and carriage returns do not count. -/
def registeredName (line : List Char) : List Char :=
  Text.trim (line.filter fun c => c ≠ '\t' && c ≠ '\r')

/-- The names in a registration. -/
def registeredNames (s : String) : List String :=
  (((Text.splitLines s.toList).map registeredName).filter fun cs => !cs.isEmpty).map String.ofList

/-- The directories of registered overlays. -/
def overlayPaths (dir registration : Path) : List String → Search (List Path)
  | [] => pure []
  | name :: rest =>
    match nameFault? name with
    | some f => stop (.badRegistration f.message .invalid) registration
    | none => do
      let overlay := dir.child name
      if ← Program.isDirectory overlay then
        if ← Program.isReadable overlay then
          return overlay :: (← overlayPaths dir registration rest)
        else stop (.unreadableOverlay name) overlay
      else stop (.missingOverlay name) overlay

/-- The overlays of a layer or add-on, the first being the highest. -/
def overlays (layout : Layout) (dir : Path) : Search (List Path) := do
  let base := dir.child layout.overlaysDir
  if ← Program.isPresent base then
    let isDirectory ← Program.isDirectory base
    let isReadable ← if isDirectory then Program.isReadable base else pure false
    if isReadable then
      let registration := base.child layout.overlaysDir
      if ← Program.isPresent registration then
        if ← Program.isReadable registration then
          let text ← Program.text registration fun reason =>
            ⟨.badRegistration reason .denied, registration.text⟩
          overlayPaths base registration (registeredNames text)
        else stop (.badRegistration none .denied) registration
      else return []
    else stop .badOverlaysDirectory base
  else return []

/-! ## Layers and add-ons -/

/-- What a directory is searched as. -/
inductive Role where
  | layer
  | addOn
deriving DecidableEq, Repr

/-- A role in a log entry. -/
def Role.text : Role → String
  | layer => "layer"
  | addOn => "add-on"

/-- Log overlays. -/
def logOverlays (role : Role) : List Path → Search Unit
  | [] => pure ()
  | p :: rest => do
    logEntry ⟨.debug, "Added overlay", [pathField "directory" p, ("kind", .str role.text)]⟩
    logOverlays role rest

/-- The search path of a layer or add-on: its overlays and itself. -/
def block (layout : Layout) (role : Role) (dir : Path) : Search (List Path) := do
  let paths ← overlays layout dir
  logOverlays role paths
  logEntry ⟨.debug, "Added " ++ role.text, [pathField "directory" dir]⟩
  return paths ++ [dir]

/-- The search path of layers. -/
def layerBlocks (layout : Layout) (dir : Path) : List String → Search (List Path)
  | [] => pure []
  | name :: rest => do
    let layer := dir.child name
    if ← Program.isDirectory layer then
      let first ← block layout .layer layer
      return first ++ (← layerBlocks layout dir rest)
    else stop (.missingLayer name) layer

/-- The search path of add-ons. -/
def addOnBlocks (layout : Layout) (dir : Path) : List String → Search (List Path)
  | [] => pure []
  | name :: rest => do
    let first ← block layout .addOn (dir.child name)
    return first ++ (← addOnBlocks layout dir rest)

/-! ## Roots -/

/-- The layering structure of a root. -/
structure Structure where
  layersDir : Path
  layers : List String
  addOnsDir : Path
deriving DecidableEq

/-- Names in order, the base layer last. -/
def discoveryOrder (names : List String) : List String :=
  let sorted := Text.sort names
  if sorted.contains baseLayer then sorted.erase baseLayer ++ [baseLayer] else sorted

/-- The structure that the configuration file `file` of a root sets up. -/
def configuredStructure (layout : Layout) (root file : Path) : Search Structure := do
  let text ← Program.text file fun reason => ⟨.badConf reason .denied, file.text⟩
  let conf ← (Conf.ofText text).mapCause fun f => ⟨.badConf f.message .invalid, file.text⟩
  let layersDir := root.child (conf.layersPath.getD layout.layersPath)
  let addOnsDir := root.child (conf.addOnsPath.getD layout.addOnsPath)
  if ← Program.isDirectory layersDir then
    logEntry ⟨.debug, "Read layer configuration",
      [pathField "file" file, ("layers", .str (String.intercalate "," conf.layers))]⟩
    return ⟨layersDir, conf.layers, addOnsDir⟩
  else stop .noLayersDirectory layersDir

/-- The structure that the directories of a root make up, if there is any layer. -/
def discoveredStructure (layout : Layout) (root : Path) : Search (Option Structure) := do
  let layersDir := root.child layout.layersPath
  if ← Program.isDirectory layersDir then
    let names ← Program.subdirectories layersDir fun _ => ⟨.noLayersDirectory, layersDir.text⟩
    match discoveryOrder names with
    | [] => return none
    | layers => return some ⟨layersDir, layers, root.child layout.addOnsPath⟩
  else return none

/-- The layering structure of a root, if it has one. -/
def structureOf (layout : Layout) (root : Path) : Search (Option Structure) := do
  let file := root.child layout.configFile
  if ← Program.isPresent file then
    return some (← configuredStructure layout root file)
  else discoveredStructure layout root

/-- The search path of the add-ons in a directory, if it is one. -/
def addOns (layout : Layout) (dir : Path) : Search (List Path) := do
  if ← Program.isDirectory dir then
    let names ← Program.subdirectories dir fun _ => ⟨.unlistedAddOns, dir.text⟩
    addOnBlocks layout dir (Text.sort names)
  else return []

/-- The search path of a root, outside of the context that its log entries carry. -/
def searchRoot (layout : Layout) (root : Path) : Search (List Path) := do
  logEntry ⟨.debug, "Added module root", [pathField "directory" root]⟩
  match ← structureOf layout root with
  | none => return [root]
  | some s =>
    let layers ← layerBlocks layout s.layersDir s.layers
    let more ← addOns layout s.addOnsDir
    return root :: (layers ++ more)

/-- The search path of a root. -/
def resolveRoot (layout : Layout) (root : Path) : Search (List Path) :=
  (searchRoot layout root).within [pathField "root" root]

/-- The search paths of roots, one after another. -/
def resolveRoots (layout : Layout) : List Path → Search (List Path)
  | [] => pure []
  | root :: rest => do
    let first ← resolveRoot layout root
    return first ++ (← resolveRoots layout rest)

/-- The search path of roots. -/
def resolve (layout : Layout) (roots : List Path) : Search (List Path) := do
  let paths ← resolveRoots layout roots
  logEntry ⟨.info, "Resolved layered module path", [Log.countField "entries" paths.length]⟩
  return paths

end ModulePath.Layers
