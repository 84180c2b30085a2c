import ModulePath.Edge.Basic
import ModulePath.Path.Basic
import ModulePath.Template.Renderer

/-!
# Reports

Texts for readers: the search path of layered modules, the edges of a module with their filters,
and which paths cross which edge. Each is a template that is rendered with what is to be shown. Tags
on lines of their own leave no trace in a report, for the templates are prepared that way.
-/

set_option autoImplicit false

namespace ModulePath.Report

open Template (Expr Renderer)

/-! ## Templates -/

/-- How the templates are prepared. -/
def options : Template.Options where
  trimBlocks := true
  lstripBlocks := true
  keepTrailingNewline := true

/-- A field of the edge that is shown. -/
def edgeField (key : String) : Expr := .field (.name "edge") key

/-- A field of the row that is shown. -/
def rowField (key : String) : Expr := .field (.name "row") key

/-- The template of a search path. -/
def modulePathTemplate : Template := [
  .text "Layered module path (", .number 0 (.length "entries"), .text " ",
  .output (.choice (.isCount (.length "entries") 1) (.text "entry") (.text "entries")),
  .text "):\n",
  .forEach "entry" (.name "entries") [
    .text "\n", .number 3 .index, .text "  ", .output (.name "entry"), .text "\n"],
  .text "\n"]

/-- The template of edges with their filters. -/
def edgesTemplate : Template := [
  .text "Module ", .output (.name "module"), .text "\n",
  .forEach "edge" (.name "edges") [
    .text "\n  [", .number 0 .index, .text "] ", .output (edgeField "kind"), .text " ",
    .output (edgeField "target"), .onlyIf (edgeField "optional") [.text " (optional)"],
    .text "\n\n      import:   ", .output (edgeField "import_filter"),
    .text "\n      export:   ", .output (edgeField "export_filter"), .text "\n",
    .onlyIf (edgeField "services") [
      .text "\n      services: ", .output (edgeField "services"), .text "\n"],
    .text "\n"],
  .text "\n"]

/-- The template of edges with the paths that cross them. -/
def checkTemplate : Template := [
  .text "Module ", .output (.name "module"), .text "\n",
  .forEach "edge" (.name "edges") [
    .text "\n  [", .number 0 .index, .text "] ", .output (edgeField "kind"), .text " ",
    .output (edgeField "target"), .text "\n",
    .forEach "row" (edgeField "rows") [
      .text "\n      ", .output (rowField "path"), .text ": ",
      .output (.choice (rowField "imported") (.text "imported") (.text "hidden")), .text ", ",
      .output (.choice (rowField "exported") (.text "exported") (.text "not exported")),
      .text "\n"],
    .text "\n"],
  .text "\n"]

/-! ## What is shown -/

/-- What is shown of an edge. -/
def edgeView (e : Edge) : List (Value × Value) := [
  (.str "kind", .str e.kindText),
  (.str "target", .str e.targetText),
  (.str "optional", .bool e.isOptional),
  (.str "services", (e.servicesText?.map Value.str).getD .null),
  (.str "import_filter", .str e.importFilter.text),
  (.str "export_filter", .str e.exportFilter.text)]

/-- What is shown of a path that may cross an edge. -/
def rowView (e : Edge) (path : String) : Value := .dict [
  (.str "path", .str path),
  (.str "imported", .bool (e.imports path)),
  (.str "exported", .bool (e.exports path))]

/-- What is shown of an edge with paths that may cross it. -/
def checkView (paths : List String) (e : Edge) : Value :=
  .dict (edgeView e ++ [(.str "rows", .list (paths.map (rowView e)))])

/-! ## Reports -/

/-- A search path. -/
def modulePath (r : Renderer) (entries : List Path) : Except Fault String :=
  r.render options modulePathTemplate
    { bindings := [("entries", .list (entries.map fun p => .str p.text))] }

/-- The edges of a module with their filters. -/
def edges (r : Renderer) (name : String) (es : List Edge) : Except Fault String :=
  r.render options edgesTemplate
    { bindings := [("module", .str name), ("edges", .list (es.map fun e => .dict (edgeView e)))] }

/-- Which paths cross which edge of a module. -/
def check (r : Renderer) (name : String) (es : List Edge) (paths : List String) :
    Except Fault String :=
  r.render options checkTemplate
    { bindings := [("module", .str name), ("edges", .list (es.map (checkView paths)))] }

end ModulePath.Report
