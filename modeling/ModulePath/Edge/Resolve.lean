import ModulePath.Edge.Basic
import ModulePath.Log.Record

/-!
# Resolving dependencies

Every dependency becomes an edge with two filters. `META-INF` is hidden in both directions unless
the treatment of services lets the service declarations through. On the way in services come before
the rules of the dependency; on the way out the rules come first.
-/

set_option autoImplicit false

namespace ModulePath

/-- What a module sees through a dependency on another module. -/
def ModuleDependency.importFilter (d : ModuleDependency) : Filter :=
  if d.importRules.isEmpty then
    if d.services = .hidden then Filter.defaultImport else Filter.defaultImportWithServices
  else
    let services := if d.services = .hidden then [] else [(Filter.services, true)]
    let rules := d.importRules.map Rule.toFilterRule
    ((((Filter.Builder.new true).addAll services).addAll rules).addAll Filter.hideMetaInf).create

/-- What a module passes on, when `reexport` says what happens to paths without a rule. -/
def exportFilterOf (reexport : Bool) (rules : List Rule) (services : Services) : Filter :=
  let services := if services = .reexported then [(Filter.services, true)] else []
  let hidden := if reexport then Filter.hideMetaInf else []
  ((((Filter.Builder.new reexport).addAll (rules.map Rule.toFilterRule)).addAll services).addAll
    hidden).create

/-- What a module passes on of a dependency on another module. -/
def ModuleDependency.exportFilter (d : ModuleDependency) : Filter :=
  exportFilterOf d.reexport d.exportRules d.services

/-- What a module passes on of the platform. -/
def PlatformDependency.exportFilter (d : PlatformDependency) : Filter :=
  exportFilterOf d.reexport d.exportRules .hidden

/-- What a module passes on of its own content. -/
def Descriptor.exportFilter (d : Descriptor) : Filter :=
  ((Filter.Builder.new true).addAll (d.exportRules.map Rule.toFilterRule)).create

/-- The edge of a dependency. -/
def Dependency.resolve : Dependency → Edge
  | .onModule d => ⟨.onModule d.target d.optional d.services, d.importFilter, d.exportFilter⟩
  | .onPlatform d => ⟨.onPlatform d.paths, Filter.acceptAll, d.exportFilter⟩

/-- The edge of a module to its own content. -/
def Descriptor.ownEdge (d : Descriptor) : Edge :=
  ⟨.own d.name, Filter.acceptAll, d.exportFilter⟩

/-- The edges of a module: to its own content first, then to its dependencies in order. -/
def Descriptor.edges (d : Descriptor) : List Edge :=
  d.ownEdge :: d.dependencies.map Dependency.resolve

/-! ## Log -/

/-- The logger of resolution. -/
def dependencyLogger : String := "modfilter.dependencies"

/-- What is logged when a dependency is resolved. -/
def Edge.logEntry (e : Edge) : Log.Entry :=
  match e.origin with
  | .onPlatform paths =>
    ⟨.debug, "Resolved system dependency",
      [Log.countField "paths" paths.size, ("export_filter", .str e.exportFilter.text)]⟩
  | _ =>
    ⟨.debug, "Resolved dependency",
      [("target", .str e.targetText), ("import_filter", .str e.importFilter.text),
        ("export_filter", .str e.exportFilter.text)]⟩

/-- The record of the resolution of one dependency. -/
def Dependency.log (d : Dependency) : List Log.Record :=
  [.ofEntry dependencyLogger [] d.resolve.logEntry]

/-- The records of the resolution of a module. -/
def Descriptor.log (d : Descriptor) : List Log.Record :=
  let last : Log.Entry := ⟨.debug, "Resolved module", [Log.countField "edges" d.edges.length]⟩
  (d.dependencies.map (fun dep => dep.resolve.logEntry) ++ [last]).map
    (Log.Record.ofEntry dependencyLogger [[("module", .str d.name)]])

end ModulePath
