import ModulePath.Template.Basic

/-!
# Renderers

A library renders templates. Which text it makes of a template is not said here but for the
templates whose expressions have values: without any preparation that is the text that they write.
Each option stands for one preparation, and they are made in a fixed order: the end of the template,
the blanks before its tags, the line breaks behind them.
-/

set_option autoImplicit false

namespace ModulePath.Template

/-- How a template is prepared. -/
structure Options where
  /-- Whether the line break after a tag is taken away. -/
  trimBlocks : Bool
  /-- Whether blanks between the beginning of a line and a tag are taken away. -/
  lstripBlocks : Bool
  /-- Whether a line break at the end of the template stays. -/
  keepTrailingNewline : Bool

/-- A renderer of templates. -/
structure Renderer where
  render : Options → Template → Context → Except Fault String
  render_dropEnd (trim lstrip : Bool) {t : Template} (c : Context) : isWritten false t = true →
    render ⟨trim, lstrip, false⟩ t c = render ⟨trim, lstrip, true⟩ (dropEnd t) c
  render_lstrip (trim : Bool) {t : Template} (c : Context) : isWritten false t = true →
    render ⟨trim, true, true⟩ t c = render ⟨trim, false, true⟩ (lstrip true false t) c
  render_trim {t : Template} (c : Context) : isWritten false t = true →
    render ⟨true, false, true⟩ t c = render ⟨false, false, true⟩ (trim false t) c
  render_plain {t : Template} {c : Context} {s : String} : isWritten false t = true →
    writeAll? t c = some s → render ⟨false, false, true⟩ t c = .ok s

namespace Renderer

/-- A template as an option leaves it. -/
def prepared (o : Options) (t : Template) : Template :=
  let kept := if o.keepTrailingNewline then t else dropEnd t
  let stripped := if o.lstripBlocks then lstrip true false kept else kept
  if o.trimBlocks then trim false stripped else stripped

/-- The renderer that prepares a template and writes it. -/
def builtIn : Renderer where
  render o t c :=
    match writeAll? (prepared o t) c with
    | some s => .ok s
    | none => .error .value
  render_dropEnd trim lstrip _ _ _ := by cases trim <;> cases lstrip <;> rfl
  render_lstrip trim _ _ _ := by cases trim <;> rfl
  render_trim _ _ := rfl
  render_plain _ h := by
    unfold prepared
    simp [h]

end Renderer

end ModulePath.Template
