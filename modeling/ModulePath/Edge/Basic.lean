import ModulePath.Descriptor.Basic

/-!
# Dependency edges

An edge is a resolved dependency: where it leads, what the module sees through it and what it
passes on of that.
-/

set_option autoImplicit false

namespace ModulePath

/-- Where an edge leads. -/
inductive Edge.Origin where
  /-- To the content of the module itself. -/
  | own (name : String)
  | onModule (target : String) (optional : Bool) (services : Services)
  | onPlatform (paths : TextSet)
deriving DecidableEq, Inhabited

/-- An edge. -/
structure Edge where
  origin : Edge.Origin
  importFilter : Filter
  exportFilter : Filter
deriving Inhabited

namespace Edge

/-- Whether two edges are equal. -/
def same (a b : Edge) : Bool :=
  a.origin == b.origin && a.importFilter.same b.importFilter && a.exportFilter.same b.exportFilter

/-- Whether a path is seen through an edge. The platform only offers the paths it lists. -/
def imports (e : Edge) (path : String) : Bool :=
  match e.origin with
  | .onPlatform paths => paths.contains path && e.importFilter.accepts path
  | _ => e.importFilter.accepts path

/-- Whether a path is seen through an edge and passed on. -/
def exports (e : Edge) (path : String) : Bool :=
  e.imports path && e.exportFilter.accepts path

/-! ## In reports -/

/-- The kind of an edge. -/
def kindText (e : Edge) : String :=
  match e.origin with
  | .own _ => "local"
  | .onModule .. => "module"
  | .onPlatform _ => "system"

/-- The target of an edge. -/
def targetText (e : Edge) : String :=
  match e.origin with
  | .own name => name
  | .onModule target .. => target
  | .onPlatform paths => "(" ++ toString paths.size ++ " paths)"

/-- Whether an edge is optional. -/
def isOptional (e : Edge) : Bool :=
  match e.origin with
  | .onModule _ optional _ => optional
  | _ => false

/-- The treatment of services, unless they are hidden. -/
def servicesText? (e : Edge) : Option String :=
  match e.origin with
  | .onModule _ _ services => if services = .hidden then none else some services.text
  | _ => none

end Edge

/-- Why no edge is made or shown. -/
inductive Edge.Error where
  /-- A piece of data is no dependency. -/
  | notDependency (kind : String)
  /-- A piece of data is no edge. -/
  | notEdge (kind : String)
deriving DecidableEq

/-- The text of an error. -/
def Edge.Error.message : Edge.Error → String
  | notDependency kind => "Not a dependency declaration: " ++ kind
  | notEdge kind => "Not a dependency edge: " ++ kind

end ModulePath
