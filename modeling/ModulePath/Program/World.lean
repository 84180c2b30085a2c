import ModulePath.Program.Basic

/-!
# Programs in a world

A world answers the questions of a program and takes its log records. Both can change it, and later
answers can depend on the change.
-/

set_option autoImplicit false

namespace ModulePath

/-- A world with states of a type. -/
structure World (σ : Type) where
  answer : σ → (q : Query) → q.Answer × σ
  record : σ → Log.Record → σ

/-- Run a program in a world, from a state on. -/
def Program.run {σ ε α : Type} (w : World σ) : Program ε α → σ → Outcome ε α × σ
  | done r, s => (r, s)
  | log r next, s => next.run w (w.record s r)
  | ask q next, s => (next (w.answer s q).1).run w (w.answer s q).2

end ModulePath
