import ModulePath.Program.Trace
import ModulePath.Program.World

/-!
# Programs that run in a world

The run of a program in a world, computed along the ways in which programs are put together: the
outcome, and the state that the world is left in. A second program goes on from the state that the
first one leaves (`run_bind`), and a program that is tried leaves the state that it would leave
anyway (`run_attempt`). A file system that nothing changes is a world in which a program ends as it
does on that file system (`run_world`).
-/

set_option autoImplicit false

namespace ModulePath

/-- A file system as a world that nothing changes. -/
def FileSystem.world (fs : FileSystem) : World Unit :=
  ⟨fun x q => (fs.answer q, x), fun x _ => x⟩

namespace Program

variable {σ ε δ α β : Type} {w : World σ} {p : Program ε α} {f : α → Program ε β} {x y : σ}

theorem pure_bind (a : α) (f : α → Program ε β) : (pure a : Program ε α) >>= f = f a := rfl

theorem ofFaulty_ok (a : α) : (ofFaulty (.ok a) : Program ε α) = pure a := rfl

theorem ofOutcome_ok (a : α) : (ofOutcome (.ok a) : Program ε α) = pure a := rfl

/-- A fault ends a sequence. -/
theorem ofFaulty_error_bind (e : Fault) (f : α → Program ε β) :
    ofFaulty (.error e) >>= f = fault e := rfl

/-- Sequences of programs are associative. -/
theorem bind_bind {γ : Type} (p : Program ε α) (f : α → Program ε β) (g : β → Program ε γ) :
    (p >>= f) >>= g = p >>= fun a => f a >>= g := by
  change (p.andThen f).andThen g = p.andThen fun a => (f a).andThen g
  induction p with
  | done r =>
    cases r with
    | ok a => rfl
    | error e => rfl
  | log r next ih => exact congrArg (log r) ih
  | ask q next ih => exact congrArg (ask q) (funext fun a => ih a)

/-- What follows is run where the first program left off. -/
theorem run_bind (w : World σ) (p : Program ε α) (f : α → Program ε β) (x : σ) :
    (p >>= f).run w x =
      match p.run w x with
      | (.ok a, y) => (f a).run w y
      | (.error e, y) => (.error e, y) := by
  change (p.andThen f).run w x = _
  induction p generalizing x with
  | done r =>
    cases r with
    | ok a => rfl
    | error e => rfl
  | log r next ih => exact ih (w.record x r)
  | ask q next ih => exact ih (w.answer x q).1 (w.answer x q).2

theorem run_bind_of_ok {a : α} (h : p.run w x = (.ok a, y)) :
    (p >>= f).run w x = (f a).run w y := by
  rw [run_bind, h]

/-- After a failure nothing is run. -/
theorem run_bind_of_error {e : Failure ε} (h : p.run w x = (.error e, y)) :
    (p >>= f).run w x = (.error e, y) := by
  rw [run_bind, h]

/-- The inversion of a sequence. -/
theorem run_bind_eq_ok {b : β} {z : σ} :
    (p >>= f).run w x = (.ok b, z) ↔
      ∃ a y, p.run w x = (.ok a, y) ∧ (f a).run w y = (.ok b, z) := by
  constructor
  · intro h
    cases hp : p.run w x with
    | mk r y =>
      cases r with
      | ok a => exact ⟨a, y, rfl, (run_bind_of_ok hp).symm.trans h⟩
      | error e =>
        rw [run_bind_of_error hp] at h
        cases h
  · rintro ⟨a, y, hp, h⟩
    exact (run_bind_of_ok hp).trans h

/-- Carrying causes over changes the outcome and nothing else. -/
theorem run_mapCause (g : ε → δ) (w : World σ) (p : Program ε α) (x : σ) :
    (p.mapCause g).run w x = (Outcome.mapCause g (p.run w x).1, (p.run w x).2) := by
  induction p generalizing x with
  | done r => rfl
  | log r next ih => exact ih (w.record x r)
  | ask q next ih => exact ih (w.answer x q).1 (w.answer x q).2

/-- A refusal of a program that is tried is an answer. -/
theorem run_attempt (w : World σ) (p : Program ε α) (x : σ) :
    (p.attempt : Program δ (Except ε α)).run w x =
      (match (p.run w x).1 with
        | .ok a => .ok (.ok a)
        | .error (.refused cause) => .ok (.error cause)
        | .error (.fault f) => .error (.fault f), (p.run w x).2) := by
  induction p generalizing x with
  | done r =>
    cases r with
    | ok a => rfl
    | error e =>
      cases e with
      | refused cause => rfl
      | fault f => rfl
  | log r next ih => exact ih (w.record x r)
  | ask q next ih => exact ih (w.answer x q).1 (w.answer x q).2

/-- Logging records has no outcome but to go on. -/
theorem run_noteAll (w : World σ) (rs : List Log.Record) (x : σ) :
    (noteAll rs : Program ε Unit).run w x = (.ok (), rs.foldl w.record x) := by
  induction rs generalizing x with
  | nil => rfl
  | cons r rs ih => exact ih (w.record x r)

/-! ## File systems -/

/-- A program that is run in a file system alone has its outcome there. -/
theorem run_world (fs : FileSystem) (p : Program ε α) : p.run fs.world () = (p.outcome fs, ()) := by
  induction p with
  | done r => rfl
  | log r next ih => exact ih
  | ask q next ih => exact ih (fs.answer q)

end Program

end ModulePath
