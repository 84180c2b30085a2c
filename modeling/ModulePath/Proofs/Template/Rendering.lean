import ModulePath.Template.Renderer

/-!
# What a renderer makes of a template

A template that can be written is rendered as the text that it writes once it is prepared
(`Renderer.render_eq_ok`), whatever the renderer. The text of a template is put together from those
of its parts, and that of a loop from one text for each item (`write?_forEach`).
-/

set_option autoImplicit false

namespace ModulePath.Template

variable {c : Context} {e : Expr} {n : Node} {t body : Template} {s : String}

/-! ## Expressions -/

/-- A choice between two texts by a truth value. -/
theorem value?_choice_text {condition : Expr} {b : Bool} {yes no : String}
    (h : condition.value? c = some (.bool b)) :
    (Expr.choice condition (.text yes) (.text no)).value? c =
      some (.str (if b then yes else no)) := by
  rw [Expr.value?, h]
  cases b <;> rfl

/-! ## Parts of a template -/

theorem padLeft_zero (s : String) : padLeft 0 s = s := by
  rw [padLeft, Nat.zero_sub]
  exact String.empty_append

/-- A number without a column. -/
theorem write?_number {k : Count} {m : Nat} (h : k.value? c = some m) :
    (Node.number 0 k).write? c = some (toString m) := by
  rw [Node.write?, h, Option.map_some, padLeft_zero]

/-- An expression that stands for a text is written as the text. -/
theorem write?_output (h : e.value? c = some (.str s)) : (Node.output e).write? c = some s := by
  rw [Node.write?, h]

theorem write?_text (s : String) (c : Context) : (Node.text s).write? c = some s := rfl

/-- The text of a template, from those of its parts. -/
theorem writeAll?_cons {rest : Template} (hn : n.write? c = some s) :
    writeAll? (n :: rest) c = (writeAll? rest c).map (s ++ ·) := by
  rw [writeAll?, hn]
  cases writeAll? rest c with
  | none => rfl
  | some s' => rfl

/-- A text is written before what follows. -/
theorem writeAll?_text (rest : Template) :
    writeAll? (.text s :: rest) c = (writeAll? rest c).map (s ++ ·) :=
  writeAll?_cons (write?_text s c)

theorem writeAll?_nil (c : Context) : writeAll? [] c = some "" := rfl

/-- A block that is written only if something is there. -/
theorem write?_onlyIf {v : Value} (h : e.value? c = some v)
    (hbody : v.truthy = true → writeAll? body c = some s) :
    (Node.onlyIf e body).write? c = some (if v.truthy then s else "") := by
  rw [Node.write?, h]
  cases hv : v.truthy with
  | true =>
    rw [if_pos rfl, ← hbody hv]
    simp [hv]
  | false => simp [hv]

/-- The texts of a list, when each member has one. -/
theorem mapM_eq_some {α : Type} {f : α → Option String} {g : α → String} {xs : List α}
    (h : ∀ x ∈ xs, f x = some (g x)) : xs.mapM f = some (xs.map g) := by
  induction xs with
  | nil => rfl
  | cons x xs ih =>
    obtain ⟨hx, hxs⟩ := List.forall_mem_cons.1 h
    rw [List.mapM_cons, hx, ih hxs]
    rfl

/-- A loop writes its body for each item, with the item and its place. -/
theorem write?_forEach {α : Type} {x : String} {xs : List α} {view : α → Value}
    {g : α → Nat → String} (he : e.value? c = some (.list (xs.map view)))
    (h : ∀ a place, writeAll? body (inLoop c x place (view a)) = some (g a place)) :
    (Node.forEach x e body).write? c =
      some (String.join (xs.zipIdx.map fun item => g item.1 item.2)) := by
  rw [Node.write?, he]
  dsimp only
  rw [List.zipIdx_map, List.mapM_map, mapM_eq_some fun item _ => h item.1 item.2]
  rfl

/-! ## Renderers -/

namespace Renderer

/-- A template is rendered as what it writes when blanks before its tags and then the line breaks
after them are taken away. -/
theorem render_eq_ok (r : Renderer) (ht : isWritten false t = true)
    (hlstrip : isWritten false (lstrip true false t) = true)
    (htrim : isWritten false (trim false (lstrip true false t)) = true)
    (h : writeAll? (trim false (lstrip true false t)) c = some s) :
    r.render ⟨true, true, true⟩ t c = .ok s := by
  rw [r.render_lstrip true c ht, r.render_trim c hlstrip, r.render_plain htrim h]

end Renderer

end ModulePath.Template
