import ModulePath.Layers.Layout
import ModulePath.Proofs.Outcome.Members

/-!
# Layouts from checked settings

Settings that pass the check tell a layout, and its places are usable: two names and two paths
inside a root (`Layout.Valid`, `exists_layout`). What the settings leave out has its usual place,
which is usable too.
-/

set_option autoImplicit false

namespace ModulePath

namespace Config

variable {entries : Entries} {field : String}

theorem refuse_ne_ok {α : Type} {fault : Invalid} {a : α} :
    (refuse fault : Outcome Invalid α) ≠ .ok a := by
  unfold refuse
  split
  · exact Outcome.refuse_ne_ok
  · exact Outcome.fault_ne_ok

theorem checkField_eq_ok_iff {p : Value → Option Invalid} :
    checkField entries field p = .ok () ↔
      ∀ v, Value.field? field entries = some v → p v = none := by
  unfold checkField
  cases Value.field? field entries with
  | none => simp
  | some v =>
    cases hp : p v with
    | none => simp [hp]
    | some fault => simp [hp, refuse_ne_ok]

/-- A path without a fault is a relative one that does not lead outside. -/
theorem layersPathFault?_eq_none_iff {v : Value} :
    layersPathFault? field v = none ↔ ∃ s, v = .str s ∧ relativePathFault? s = none := by
  cases v with
  | str s =>
    cases hfault : relativePathFault? s with
    | none => simp [layersPathFault?, relativePath?, hfault]
    | some f => simp [layersPathFault?, relativePath?, hfault]
  | null | bool _ | int _ | real _ | list _ | tuple _ | set _ | dict _ =>
    simp [layersPathFault?, relativePath?]

theorem layersNameFault?_eq_none_iff {v : Value} :
    layersNameFault? field v = none ↔ ∃ s, v = .str s ∧ nameFault? s = none := by
  cases v with
  | str s =>
    cases hfault : nameFault? s with
    | none => simp [layersNameFault?, layerName?, hfault]
    | some f => simp [layersNameFault?, layerName?, hfault]
  | null | bool _ | int _ | real _ | list _ | tuple _ | set _ | dict _ =>
    simp [layersNameFault?, layerName?]

/-- A field that passes its check holds a usable text, or else its default does. -/
theorem exists_text_of_checkField {p : Value → Option Invalid} {P : String → Prop}
    {default : String} (h : checkField entries field p = .ok ())
    (hp : ∀ v, p v = none → ∃ s, v = .str s ∧ P s) (hdefault : P default) :
    ∃ s, (Value.field? field entries).getD (.str default) = .str s ∧ P s := by
  cases hfield : Value.field? field entries with
  | none => exact ⟨default, rfl, hdefault⟩
  | some v => exact hp v (checkField_eq_ok_iff.1 h v hfield)

end Config

namespace Layers

/-- All places of a layout are usable. -/
structure Layout.Valid (layout : Layout) : Prop where
  configFile : nameFault? layout.configFile = none
  layersPath : relativePathFault? layout.layersPath = none
  addOnsPath : relativePathFault? layout.addOnsPath = none
  overlaysDir : nameFault? layout.overlaysDir = none

theorem valid_default : Layout.default.Valid := by
  constructor <;> decide

/-- Settings that pass their check make a valid layout. -/
theorem exists_layout {entries : Config.Entries}
    (h : Config.checkLayers (.dict entries) = .ok ()) :
    ∃ layout, (LayoutOf.ofEntries entries).toLayout? = some layout ∧ layout.Valid := by
  -- the field names are checked first, then each field that is there
  obtain ⟨-, -, h⟩ := Outcome.seq_eq_ok.1 h
  obtain ⟨⟨⟩, hlayersPath, h⟩ := Outcome.seq_eq_ok.1 h
  obtain ⟨⟨⟩, haddOnsPath, h⟩ := Outcome.seq_eq_ok.1 h
  obtain ⟨⟨⟩, hconfigFile, hoverlaysDir⟩ := Outcome.seq_eq_ok.1 h
  obtain ⟨configFile, hfile, hfileValid⟩ := Config.exists_text_of_checkField hconfigFile
    (fun _ => Config.layersNameFault?_eq_none_iff.1) valid_default.configFile
  obtain ⟨layersPath, hlayers, hlayersValid⟩ := Config.exists_text_of_checkField hlayersPath
    (fun _ => Config.layersPathFault?_eq_none_iff.1) valid_default.layersPath
  obtain ⟨addOnsPath, haddOns, haddOnsValid⟩ := Config.exists_text_of_checkField haddOnsPath
    (fun _ => Config.layersPathFault?_eq_none_iff.1) valid_default.addOnsPath
  obtain ⟨overlaysDir, hoverlays, hoverlaysValid⟩ := Config.exists_text_of_checkField hoverlaysDir
    (fun _ => Config.layersNameFault?_eq_none_iff.1) valid_default.overlaysDir
  refine ⟨⟨configFile, layersPath, addOnsPath, overlaysDir⟩, ?_, ?_⟩
  · simp [LayoutOf.ofEntries, LayoutOf.toLayout?, hfile, hlayers, haddOns, hoverlays, Config.text?]
  · exact ⟨hfileValid, hlayersValid, haddOnsValid, hoverlaysValid⟩

end Layers

end ModulePath
