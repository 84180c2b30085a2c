import ModulePath.Proofs.Template.Rendering
import ModulePath.Report

/-!
# The layout of reports

A report consists of lines (`ofLines`), however the renderer makes it: the tags of the templates
stand on lines of their own, of which nothing is left once the templates are prepared. For each
template the text is followed through its loops, from the lines of one item to those of all
(`modulePath_eq`, `edges_eq`, `check_eq`).
-/

set_option autoImplicit false

namespace ModulePath.Report

open Template

variable {α : Type} {c : Context}

/-! ## Lines -/

/-- The lines of a report as one text. -/
def ofLines (lines : List String) : String :=
  String.join (lines.map (· ++ "\n"))

theorem ofLines_cons (line : String) (lines : List String) :
    ofLines (line :: lines) = line ++ "\n" ++ ofLines lines := String.join_cons

theorem ofLines_singleton (line : String) : ofLines [line] = line ++ "\n" := by
  rw [ofLines_cons]
  exact String.append_empty

/-- Lines are written one after the other. -/
theorem ofLines_append (lines more : List String) :
    ofLines (lines ++ more) = ofLines lines ++ ofLines more := by
  induction lines with
  | nil => exact String.empty_append.symm
  | cons line lines ih =>
    rw [List.cons_append, ofLines_cons, ofLines_cons, ih, ← String.append_assoc]

/-- The lines of several items are those of one after those of another. -/
theorem ofLines_flatMap (xs : List α) (f : α → List String) :
    ofLines (xs.flatMap f) = String.join (xs.map fun x => ofLines (f x)) := by
  induction xs with
  | nil => rfl
  | cons x xs ih => rw [List.flatMap_cons, ofLines_append, ih, List.map_cons, String.join_cons]

theorem ofLines_map (xs : List α) (f : α → String) :
    ofLines (xs.map f) = String.join (xs.map fun x => f x ++ "\n") := by
  rw [ofLines, List.map_map]
  rfl

/-- `xs` with their places, the first being 1. -/
def numbered (xs : List α) : List (Nat × α) :=
  xs.zipIdx.map fun (x, i) => (i + 1, x)

/-- The line of the entry at place `n` of a search path. -/
def entryLine (n : Nat) (p : Path) : String := padLeft 3 (toString n) ++ "  " ++ p.text

/-- The lines of a search path. -/
def modulePathLines (entries : List Path) : List String :=
  let count := toString entries.length ++ (if entries.length = 1 then " entry" else " entries")
  ("Layered module path (" ++ count ++ "):") ::
    (numbered entries).map fun (n, p) => entryLine n p

/-- The first line of the edge at place `n`. -/
def edgeHead (n : Nat) (e : Edge) : String :=
  "  [" ++ toString n ++ "] " ++ e.kindText ++ " " ++ e.targetText

/-- The line with the treatment of services, unless they are hidden. -/
def servicesLines (e : Edge) : List String :=
  match e.servicesText? with
  | some s => ["      services: " ++ s]
  | none => []

/-- The lines of the edge at place `n` with its filters. -/
def edgeLines (n : Nat) (e : Edge) : List String :=
  [edgeHead n e ++ (if e.isOptional then " (optional)" else ""),
    "      import:   " ++ e.importFilter.text,
    "      export:   " ++ e.exportFilter.text] ++ servicesLines e

/-- The lines of a module with the edges and their filters. -/
def edgesLines (name : String) (es : List Edge) : List String :=
  ("Module " ++ name) :: (numbered es).flatMap fun (n, e) => edgeLines n e

/-- The line that says whether a path crosses an edge. -/
def checkLine (e : Edge) (path : String) : String :=
  "      " ++ path ++ ": " ++ (if e.imports path then "imported" else "hidden") ++ ", " ++
    (if e.exports path then "exported" else "not exported")

/-- The lines of the edge at place `n` with the paths that cross it. -/
def checkLines (paths : List String) (n : Nat) (e : Edge) : List String :=
  edgeHead n e :: paths.map (checkLine e)

/-- The lines of a module with the paths that cross the edges. -/
def moduleLines (name : String) (es : List Edge) (paths : List String) : List String :=
  ("Module " ++ name) :: (numbered es).flatMap fun (n, e) => checkLines paths n e

/-! ## Loops -/

section

variable {x : String} {e : Expr} {body : Template} {xs : List α}

/-- A loop whose body has lines for each item has all of them. -/
theorem write?_forEach_lines (view : α → Value) (lines : Nat → α → List String)
    (he : e.value? c = some (.list (xs.map view)))
    (h : ∀ a place, writeAll? body (inLoop c x place (view a)) =
      some (ofLines (lines (place + 1) a))) :
    (Node.forEach x e body).write? c =
      some (ofLines ((numbered xs).flatMap fun item => lines item.1 item.2)) := by
  rw [write?_forEach he h, ofLines_flatMap, numbered, List.map_map]
  rfl

/-- A loop whose body has one line for each item. -/
theorem write?_forEach_line (view : α → Value) (line : Nat → α → String)
    (he : e.value? c = some (.list (xs.map view)))
    (h : ∀ a place, writeAll? body (inLoop c x place (view a)) =
      some (line (place + 1) a ++ "\n")) :
    (Node.forEach x e body).write? c =
      some (ofLines ((numbered xs).map fun item => line item.1 item.2)) := by
  rw [write?_forEach he h, ofLines_map, numbered, List.map_map]
  rfl

end

/-- Items whose places do not show. -/
theorem map_numbered (xs : List α) (f : α → String) :
    (numbered xs).map (fun item => f item.2) = xs.map f := by
  have hmap : (numbered xs).map (fun item => f item.2) = (xs.zipIdx.map Prod.fst).map f := by
    rw [numbered, List.map_map, List.map_map]
    rfl
  rw [hmap, List.zipIdx_map_fst]

/-- A number in a loop is the place of the item, counted from one. -/
theorem write?_index {x : String} {v : Value} {place : Nat} :
    (Node.number 0 .index).write? (inLoop c x place v) = some (toString (place + 1)) :=
  write?_number rfl

/-- A template of a module with a loop through its edges has a line for the module and those of the
edges. -/
theorem writeAll?_module {name : String} {es : List Edge} {body : Template} (view : Edge → Value)
    (lines : Nat → Edge → List String) (hname : c.bindings.lookup "module" = some (.str name))
    (hedges : c.bindings.lookup "edges" = some (.list (es.map view)))
    (h : ∀ e place, writeAll? body (inLoop c "edge" place (view e)) =
      some (ofLines (lines (place + 1) e))) :
    writeAll? [.text "Module ", .output (.name "module"), .text "\n",
        .forEach "edge" (.name "edges") body, .text ""] c =
      some (ofLines (("Module " ++ name) ::
        (numbered es).flatMap fun item => lines item.1 item.2)) := by
  have hmodule : (Node.output (.name "module")).write? c = some name := write?_output hname
  have hloop : (Node.forEach "edge" (.name "edges") body).write? c = some _ :=
    write?_forEach_lines view lines hedges h
  simp only [writeAll?_text, writeAll?_cons hmodule, writeAll?_cons hloop, writeAll?_nil,
    Option.map_some, ofLines_cons, String.append_assoc, String.append_empty]

/-! ## Search paths -/

/-- What the template of a search path holds for each entry, once it is prepared. -/
def entryBody : Template :=
  [.text "", .number 3 .index, .text "  ", .output (.name "entry"), .text "\n"]

theorem writeAll?_entryBody (p : Path) (place : Nat) :
    writeAll? entryBody (inLoop c "entry" place (.str p.text)) =
      some (entryLine (place + 1) p ++ "\n") := by
  have hindex : (Node.number 3 .index).write? (inLoop c "entry" place (.str p.text)) =
      some (padLeft 3 (toString (place + 1))) := rfl
  have hentry : (Node.output (.name "entry")).write? (inLoop c "entry" place (.str p.text)) =
      some p.text := write?_output rfl
  simp only [entryBody, writeAll?_text, writeAll?_cons hindex, writeAll?_cons hentry,
    writeAll?_nil, Option.map_some, entryLine, String.append_assoc, String.append_empty,
    String.empty_append]

/-- The template of a search path, once it is prepared. -/
def modulePathPrepared : Template := [
  .text "Layered module path (", .number 0 (.length "entries"), .text " ",
  .output (.choice (.isCount (.length "entries") 1) (.text "entry") (.text "entries")),
  .text "):\n", .forEach "entry" (.name "entries") entryBody, .text ""]

/-- The prepared template of a search path writes a line for each entry. -/
theorem writeAll?_modulePathPrepared {entries : List Path}
    (h : c.bindings.lookup "entries" = some (.list (entries.map fun p => .str p.text))) :
    writeAll? modulePathPrepared c = some (ofLines (modulePathLines entries)) := by
  have hlength : (Count.length "entries").value? c = some entries.length := by
    rw [Count.value?, h]
    simp only [List.length_map]
  have hone : (Expr.isCount (.length "entries") 1).value? c =
      some (.bool (entries.length = 1)) := by
    rw [Expr.value?, hlength, Option.map_some]
  have hword : (Node.output (.choice (.isCount (.length "entries") 1) (.text "entry")
      (.text "entries"))).write? c =
        some (if decide (entries.length = 1) = true then "entry" else "entries") :=
    write?_output (value?_choice_text hone)
  have hloop : (Node.forEach "entry" (.name "entries") entryBody).write? c = some _ :=
    write?_forEach_line (fun p : Path => .str p.text) entryLine h writeAll?_entryBody
  -- the line is put together as the template does it, piece by piece
  have hlines : modulePathLines entries =
      ("Layered module path (" ++ (toString entries.length ++ (" " ++
        ((if decide (entries.length = 1) = true then "entry" else "entries") ++ "):")))) ::
        (numbered entries).map fun item => entryLine item.1 item.2 := by
    have hentry : " entry" = " " ++ "entry" := by decide
    have hmany : " entries" = " " ++ "entries" := by decide
    simp only [modulePathLines, hentry, hmany, decide_eq_true_eq]
    split
    case isTrue => simp only [String.append_assoc]
    case isFalse => simp only [String.append_assoc]
  have hend : "):\n" = "):" ++ "\n" := by decide
  simp only [modulePathPrepared, hlines, hend, writeAll?_text,
    writeAll?_cons (write?_number hlength), writeAll?_cons hword, writeAll?_cons hloop,
    writeAll?_nil, Option.map_some, ofLines_cons,
    String.append_assoc, String.append_empty]

/-- A search path is rendered as its lines. -/
theorem modulePath_eq (r : Renderer) (entries : List Path) :
    modulePath r entries = .ok (ofLines (modulePathLines entries)) :=
  r.render_eq_ok (by decide) (by decide) (by decide) (writeAll?_modulePathPrepared rfl)

/-! ## Edges with their filters -/

section

variable {e : Edge} {path : String} {paths : List String} {place : Nat}

/-- What the template of edges holds for each of them, once it is prepared. -/
def edgeBody : Template := [
  .text "  [", .number 0 .index, .text "] ", .output (edgeField "kind"), .text " ",
  .output (edgeField "target"), .onlyIf (edgeField "optional") [.text " (optional)"],
  .text "\n      import:   ", .output (edgeField "import_filter"),
  .text "\n      export:   ", .output (edgeField "export_filter"), .text "\n",
  .onlyIf (edgeField "services") [
    .text "      services: ", .output (edgeField "services"), .text "\n"],
  .text ""]

/-- The treatment of services is shown as a text that says something. -/
theorem truthy_of_servicesText? {s : String} (h : e.servicesText? = some s) :
    (Value.str s).truthy = true := by
  obtain ⟨origin, importFilter, exportFilter⟩ := e
  cases origin with
  | own name => cases h
  | onPlatform paths => cases h
  | onModule target optional services =>
    cases services with
    | hidden => cases h
    | visible | reexported =>
      obtain rfl := Option.some.inj h
      decide

/-- Services are written on a line of their own, and no line without services. -/
theorem write?_services (place : Nat) :
    (Node.onlyIf (edgeField "services") [.text "      services: ",
        .output (edgeField "services"), .text "\n"]).write?
      (inLoop c "edge" place (.dict (edgeView e))) = some (ofLines (servicesLines e)) := by
  have hvalue : (edgeField "services").value? (inLoop c "edge" place (.dict (edgeView e))) =
      some ((e.servicesText?.map Value.str).getD .null) := rfl
  unfold servicesLines
  cases hservices : e.servicesText? with
  | none =>
    rw [hservices] at hvalue
    rw [Node.write?, hvalue]
    rfl
  | some s =>
    rw [hservices] at hvalue
    rw [Node.write?, hvalue, ofLines_singleton]
    simp only [Option.map_some, Option.getD_some, Option.bind_eq_bind, Option.bind_some,
      truthy_of_servicesText? hservices, if_true, writeAll?_text,
      writeAll?_cons (write?_output hvalue), writeAll?_nil, String.append_assoc,
      String.append_empty]

/-- The body for an edge writes its lines. -/
theorem writeAll?_edgeBody (place : Nat) :
    writeAll? edgeBody (inLoop c "edge" place (.dict (edgeView e))) =
      some (ofLines (edgeLines (place + 1) e)) := by
  have hfield {key text : String} (h : Value.field? key (edgeView e) = some (.str text)) :
      (Node.output (edgeField key)).write? (inLoop c "edge" place (.dict (edgeView e))) =
        some text := write?_output h
  have hoptional : (Node.onlyIf (edgeField "optional") [.text " (optional)"]).write?
      (inLoop c "edge" place (.dict (edgeView e))) =
      some (if e.isOptional then " (optional)" else "") := by
    have hvalue : (edgeField "optional").value? (inLoop c "edge" place (.dict (edgeView e))) =
        some (.bool e.isOptional) := rfl
    exact write?_onlyIf hvalue fun _ => rfl
  -- a line break before a label ends the line before it
  have himport : "\n      import:   " = "\n" ++ "      import:   " := by decide
  have hexport : "\n      export:   " = "\n" ++ "      export:   " := by decide
  have hkind : Value.field? "kind" (edgeView e) = some (.str e.kindText) := rfl
  have htarget : Value.field? "target" (edgeView e) = some (.str e.targetText) := rfl
  have himporting : Value.field? "import_filter" (edgeView e) =
      some (.str e.importFilter.text) := rfl
  have hexporting : Value.field? "export_filter" (edgeView e) =
      some (.str e.exportFilter.text) := rfl
  simp only [edgeBody, writeAll?_text, writeAll?_cons write?_index, writeAll?_cons (hfield hkind),
    writeAll?_cons (hfield htarget), writeAll?_cons hoptional,
    writeAll?_cons (hfield himporting), writeAll?_cons (hfield hexporting),
    writeAll?_cons (write?_services place), writeAll?_nil, Option.map_some, himport, hexport,
    edgeLines, edgeHead, List.cons_append, List.nil_append, ofLines_cons, String.append_assoc,
    String.append_empty]

end

/-- The edges of a module are rendered as their lines. -/
theorem edges_eq (r : Renderer) (name : String) (es : List Edge) :
    edges r name es = .ok (ofLines (edgesLines name es)) :=
  r.render_eq_ok (by decide) (by decide) (by decide)
    (writeAll?_module (fun e => .dict (edgeView e)) edgeLines rfl rfl fun _ => writeAll?_edgeBody)

section

variable {e : Edge} {paths : List String}

/-! ## Edges with the paths that cross them -/

/-- What the template of a check holds for each path, once it is prepared. -/
def rowBody : Template := [
  .text "      ", .output (rowField "path"), .text ": ",
  .output (.choice (rowField "imported") (.text "imported") (.text "hidden")), .text ", ",
  .output (.choice (rowField "exported") (.text "exported") (.text "not exported")), .text "\n"]

/-- What the template of a check holds for each edge, once it is prepared. -/
def checkBody : Template := [
  .text "  [", .number 0 .index, .text "] ", .output (edgeField "kind"), .text " ",
  .output (edgeField "target"), .text "\n", .forEach "row" (edgeField "rows") rowBody, .text ""]

theorem writeAll?_rowBody (path : String) (place : Nat) :
    writeAll? rowBody (inLoop c "row" place (rowView e path)) =
      some (checkLine e path ++ "\n") := by
  have hpath : (Node.output (rowField "path")).write? (inLoop c "row" place (rowView e path)) =
      some path := write?_output rfl
  have himported : (Node.output (.choice (rowField "imported") (.text "imported")
      (.text "hidden"))).write? (inLoop c "row" place (rowView e path)) =
      some (if e.imports path then "imported" else "hidden") :=
    write?_output (value?_choice_text rfl)
  have hexported : (Node.output (.choice (rowField "exported") (.text "exported")
      (.text "not exported"))).write? (inLoop c "row" place (rowView e path)) =
      some (if e.exports path then "exported" else "not exported") :=
    write?_output (value?_choice_text rfl)
  simp only [rowBody, writeAll?_text, writeAll?_cons hpath, writeAll?_cons himported,
    writeAll?_cons hexported, writeAll?_nil, Option.map_some, checkLine, String.append_assoc,
    String.append_empty]

/-- The body for an edge writes its line and one for each path. -/
theorem writeAll?_checkBody (place : Nat) :
    writeAll? checkBody (inLoop c "edge" place (checkView paths e)) =
      some (ofLines (checkLines paths (place + 1) e)) := by
  have hkind : (Node.output (edgeField "kind")).write?
      (inLoop c "edge" place (checkView paths e)) = some e.kindText := write?_output rfl
  have htarget : (Node.output (edgeField "target")).write?
      (inLoop c "edge" place (checkView paths e)) = some e.targetText := write?_output rfl
  have hrows : (Node.forEach "row" (edgeField "rows") rowBody).write?
      (inLoop c "edge" place (checkView paths e)) = some (ofLines (paths.map (checkLine e))) := by
    rw [← map_numbered]
    exact write?_forEach_line (rowView e) (fun _ path => checkLine e path) rfl writeAll?_rowBody
  simp only [checkBody, writeAll?_text, writeAll?_cons write?_index, writeAll?_cons hkind,
    writeAll?_cons htarget, writeAll?_cons hrows, writeAll?_nil, Option.map_some, checkLines,
    ofLines_cons, edgeHead, String.append_assoc, String.append_empty]

end

/-- A check is rendered as its lines. -/
theorem check_eq (r : Renderer) (name : String) (es : List Edge) (paths : List String) :
    check r name es paths = .ok (ofLines (moduleLines name es paths)) :=
  r.render_eq_ok (by decide) (by decide) (by decide)
    (writeAll?_module (checkView paths) (checkLines paths) rfl rfl fun _ => writeAll?_checkBody)

end ModulePath.Report
