import ModulePath.Config.Store

/-!
# Layouts

Where the layering structure of a module root lives.
-/

set_option autoImplicit false

namespace ModulePath.Layers

/-- The places of a layering structure, told by data of a type. -/
structure LayoutOf (α : Type) where
  /-- The configuration file in the root. -/
  configFile : α
  /-- The directory of layers. -/
  layersPath : α
  /-- The directory of add-ons. -/
  addOnsPath : α
  /-- The directory of overlays in a layer or add-on, and the file in it that registers them. -/
  overlaysDir : α

/-- A layout. -/
abbrev Layout := LayoutOf String

namespace Layout

/-- The usual layout. -/
def default : Layout := ⟨"layers.conf", "layers", "add-ons", ".overlays"⟩

end Layout

namespace LayoutOf

variable {α β : Type}

/-- The same places told by other data. -/
def map (f : α → β) (l : LayoutOf α) : LayoutOf β :=
  ⟨f l.configFile, f l.layersPath, f l.addOnsPath, f l.overlaysDir⟩

/-- The layout in the section of a configuration, unchecked. -/
def ofEntries (entries : Config.Entries) : LayoutOf Value :=
  let field (name dflt : String) : Value := (Value.field? name entries).getD (.str dflt)
  ⟨field "config_file" Layout.default.configFile,
    field "layers_path" Layout.default.layersPath,
    field "add_ons_path" Layout.default.addOnsPath,
    field "overlays_dir" Layout.default.overlaysDir⟩

/-- The layout in a configuration, unchecked. -/
def ofStore? (st : Config.Store) : Except Fault (LayoutOf Value) :=
  (st.section? "layers").map ofEntries

/-- A layout whose places are all told by texts. -/
def toLayout? (l : LayoutOf Value) : Option Layout := do
  return ⟨← Config.text? l.configFile, ← Config.text? l.layersPath, ← Config.text? l.addOnsPath,
    ← Config.text? l.overlaysDir⟩

end LayoutOf

end ModulePath.Layers
