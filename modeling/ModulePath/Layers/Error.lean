import ModulePath.Code

/-!
# Errors of layered modules

Why no search path is found. An error names the directory or the file it is about.
-/

set_option autoImplicit false

namespace ModulePath.Layers

/-- What went wrong. -/
inductive Cause where
  /-- A cause with a text of its own. -/
  | other (text : String) (code : Code)
  | noLayersDirectory
  | missingLayer (layer : String)
  | badOverlaysDirectory
  /-- The registration of overlays cannot be read or has a bad name. -/
  | badRegistration (reason : Option String) (code : Code)
  | missingOverlay (overlay : String)
  | unreadableOverlay (overlay : String)
  | badConf (reason : String) (code : Code)
  | unlistedAddOns
deriving DecidableEq

namespace Cause

/-- The text of a cause. -/
def text : Cause → String
  | other s _ => s
  | noLayersDirectory => "Layers directory not found"
  | missingLayer layer => "Cannot find layer '" ++ layer ++ "'"
  | badOverlaysDirectory => "Overlays directory is not a readable directory"
  | badRegistration reason _ =>
    match reason.filter fun s => !s.isEmpty with
    | some s => "Cannot read overlays metadata (" ++ s ++ ")"
    | none => "Cannot read overlays metadata"
  | missingOverlay overlay => "Overlay '" ++ overlay ++ "' not found"
  | unreadableOverlay overlay => "Overlay '" ++ overlay ++ "' is not readable"
  | badConf reason _ => "Invalid layer configuration (" ++ reason ++ ")"
  | unlistedAddOns => "Cannot list add-ons directory"

/-- The code of a cause. -/
def code : Cause → Code
  | other _ c => c
  | noLayersDirectory => .notFound
  | missingLayer _ => .notFound
  | badOverlaysDirectory => .denied
  | badRegistration _ c => c
  | missingOverlay _ => .notFound
  | unreadableOverlay _ => .denied
  | badConf _ c => c
  | unlistedAddOns => .denied

end Cause

/-- An error. -/
structure Error where
  cause : Cause
  /-- The directory or the file that the error is about. -/
  path : Option String
deriving DecidableEq

namespace Error

/-- The text of an error. -/
def message (e : Error) : String :=
  match e.path with
  | some p => e.cause.text ++ ": " ++ p
  | none => e.cause.text

/-- The code of an error. -/
def code (e : Error) : Code := e.cause.code

end Error

end ModulePath.Layers
