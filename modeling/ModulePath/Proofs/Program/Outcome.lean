import ModulePath.Program.Trace
import ModulePath.Proofs.Outcome

/-!
# How programs end

The outcome of a program on a file system, computed along the ways in which programs are put
together. A sequence ends in an answer exactly when its first part does and the rest, with that
answer, does too (`outcome_bind_eq_ok`); log entries and log contexts do not matter.
-/

set_option autoImplicit false

namespace ModulePath

variable {ε δ α β : Type}

/-- A file can be read and holds a text. -/
def FileSystem.HasText (fs : FileSystem) (p : Path) (s : String) : Prop :=
  ∃ c, fs.content p = .ok c ∧ c.text? = .ok s

/-- Changing failures leaves answers alone. -/
theorem mapError_eq_ok {γ η : Type} {g : γ → η} {r : Except γ α} {a : α} :
    r.mapError g = .ok a ↔ r = .ok a := by
  cases r with
  | ok b =>
    constructor
    · intro h
      rw [Except.ok.inj h]
    · intro h
      exact congrArg Except.ok (Except.ok.inj h)
  | error e =>
    constructor
    · intro h
      cases h
    · intro h
      cases h

namespace Program

variable (fs : FileSystem)

/-- What follows begins with the result. -/
theorem outcome_bind (p : Program ε α) (f : α → Program ε β) :
    (p >>= f).outcome fs = (p.outcome fs).bind fun a => (f a).outcome fs := by
  change (p.andThen f).outcome fs = _
  induction p with
  | done r =>
    cases r with
    | ok a => rfl
    | error e => rfl
  | log r next ih => exact ih
  | ask q next ih => exact ih (fs.answer q)

variable {fs}

/-- A sequence ends alike on two file systems if each of its parts does. -/
theorem outcome_bind_congr {fs' : FileSystem} {p : Program ε α} {f : α → Program ε β}
    (hp : p.outcome fs = p.outcome fs') (hf : ∀ a, (f a).outcome fs = (f a).outcome fs') :
    (p >>= f).outcome fs = (p >>= f).outcome fs' := by
  rw [outcome_bind, outcome_bind, hp]
  cases p.outcome fs' with
  | ok a => exact hf a
  | error e => rfl

/-- The inversion of a sequence, from which all facts about outcomes start. -/
theorem outcome_bind_eq_ok {p : Program ε α} {f : α → Program ε β} {b : β} :
    (p >>= f).outcome fs = .ok b ↔ ∃ a, p.outcome fs = .ok a ∧ (f a).outcome fs = .ok b := by
  rw [outcome_bind]
  exact Outcome.seq_eq_ok

/-! ## Asking and logging -/

theorem outcome_pure (a : α) : (pure a : Program ε α).outcome fs = .ok a := rfl

theorem outcome_pure_eq_ok {a b : α} : (pure a : Program ε α).outcome fs = .ok b ↔ b = a := by
  constructor
  · intro h
    exact (Except.ok.inj h).symm
  · rintro rfl
    rfl

theorem outcome_refuse_ne_ok {cause : ε} {a : α} :
    (refuse cause : Program ε α).outcome fs ≠ .ok a := by
  intro h
  cases h

/-- Log entries do not change the outcome. -/
@[simp] theorem outcome_note_bind (r : Log.Record) (f : Unit → Program ε α) :
    (note r >>= f).outcome fs = (f ()).outcome fs := rfl

@[simp] theorem outcome_isDirectory_bind (p : Path) (f : Bool → Program ε α) :
    (isDirectory p >>= f).outcome fs = (f (fs.isDirectory p)).outcome fs := rfl

@[simp] theorem outcome_isReadable_bind (p : Path) (f : Bool → Program ε α) :
    (isReadable p >>= f).outcome fs = (f (fs.isReadable p)).outcome fs := rfl

/-- A question about presence has an answer in every file system. -/
theorem outcome_isPresent (p : Path) :
    (isPresent p : Program ε Bool).outcome fs = .ok (fs.contains p) := by
  unfold isPresent FileSystem.contains
  rw [outcome, FileSystem.answer]
  cases fs.presence p with
  | ok b => rfl
  | error f => rfl

@[simp] theorem outcome_isPresent_bind (p : Path) (f : Bool → Program ε α) :
    (isPresent p >>= f).outcome fs = (f (fs.contains p)).outcome fs := by
  rw [outcome_bind, outcome_isPresent]
  rfl

/-- A program that refuses unless a test holds. -/
theorem outcome_ite_refuse_eq_ok {b : Bool} {p : Program ε α} {cause : ε} {a : α} :
    (if b then p else refuse cause).outcome fs = .ok a ↔ b = true ∧ p.outcome fs = .ok a := by
  cases b with
  | true => simp
  | false => simp [outcome_refuse_ne_ok]

theorem outcome_subdirectories_eq_ok {p : Path} {cause : String → ε} {names : List String} :
    (subdirectories p cause).outcome fs = .ok names ↔ fs.subdirectories p = .ok names := by
  unfold subdirectories
  rw [outcome, FileSystem.answer, outcome]
  exact mapError_eq_ok

theorem outcome_text_eq_ok {p : Path} {cause : String → ε} {s : String} :
    (text p cause).outcome fs = .ok s ↔ fs.HasText p s := by
  unfold text FileSystem.HasText
  rw [outcome, FileSystem.answer]
  cases fs.content p with
  | error reason => simp [outcome, Outcome.refuse]
  | ok c =>
    have hdone : (done (c.text?.mapError .fault) : Program ε String).outcome fs = .ok s ↔
        c.text? = .ok s := mapError_eq_ok
    simpa using hdone

/-- Other causes change what is reported and nothing else. -/
theorem outcome_mapCause (g : ε → δ) (p : Program ε α) :
    (p.mapCause g).outcome fs = Outcome.mapCause g (p.outcome fs) := by
  induction p with
  | done r => rfl
  | log r next ih => exact ih
  | ask q next ih => exact ih (fs.answer q)

theorem outcome_mapCause_eq_ok {g : ε → δ} {p : Program ε α} {a : α} :
    (p.mapCause g).outcome fs = .ok a ↔ p.outcome fs = .ok a := by
  rw [outcome_mapCause, Outcome.mapCause_eq_ok]

/-- A context changes no outcome. -/
@[simp] theorem outcome_within (c : Log.Context) (p : Program ε α) :
    (p.within c).outcome fs = p.outcome fs := by
  induction p with
  | done r => rfl
  | log r next ih => exact ih
  | ask q next ih => exact ih (fs.answer q)

end Program

end ModulePath
