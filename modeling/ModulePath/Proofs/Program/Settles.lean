import ModulePath.Proofs.Program.Outcome

/-!
# Programs that settle

A program settles on a file system if it ends in an answer or in a refusal for a cause with a given
property, but not in a fault (`Settles`). This is kept by all ways of putting programs together, and
no question about a path is a fault by itself. If a sequence ends in an error, its first part has
the error or the rest has it (`outcome_bind_eq_error`).
-/

set_option autoImplicit false

namespace ModulePath.Program

variable {ε δ α β : Type} {fs : FileSystem} {P : ε → Prop} {p : Program ε α}

/-- A program ends in an answer, or refuses for a cause with a property; it does not end in a
fault. -/
def Settles (fs : FileSystem) (P : ε → Prop) (p : Program ε α) : Prop :=
  (∃ a, p.outcome fs = .ok a) ∨ ∃ e, p.outcome fs = .error (.refused e) ∧ P e

theorem settles_pure (a : α) : Settles fs P (pure a : Program ε α) := .inl ⟨a, rfl⟩

theorem settles_refuse {e : ε} (h : P e) : Settles fs P (refuse e : Program ε α) :=
  .inr ⟨e, rfl, h⟩

theorem settles_note (r : Log.Record) : Settles fs P (note r : Program ε Unit) := .inl ⟨(), rfl⟩

/-- What follows is run on results only. -/
theorem Settles.bind {f : α → Program ε β} (hp : Settles fs P p)
    (hf : ∀ a, p.outcome fs = .ok a → Settles fs P (f a)) : Settles fs P (p >>= f) := by
  unfold Settles
  rw [outcome_bind]
  rcases hp with ⟨a, ha⟩ | ⟨e, he, hP⟩
  · rw [ha]
    exact hf a ha
  · rw [he]
    exact .inr ⟨e, rfl, hP⟩

theorem Settles.ite {b : Bool} {q : Program ε α} (hp : Settles fs P p) (hq : Settles fs P q) :
    Settles fs P (if b then p else q) := by
  cases b with
  | true => exact hp
  | false => exact hq

theorem Settles.mapCause {g : ε → δ} {Q : δ → Prop} (hp : Settles fs P p)
    (hPQ : ∀ e, P e → Q (g e)) : Settles fs Q (p.mapCause g) := by
  unfold Settles
  rw [outcome_mapCause]
  rcases hp with ⟨a, ha⟩ | ⟨e, he, hP⟩
  · exact .inl ⟨a, by rw [ha, Outcome.mapCause]⟩
  · exact .inr ⟨g e, by rw [he]; rfl, hPQ e hP⟩

theorem Settles.within {c : Log.Context} (hp : Settles fs P p) : Settles fs P (p.within c) := by
  unfold Settles
  rw [outcome_within]
  exact hp

/-! ### Asking -/

theorem settles_isDirectory (q : Path) : Settles fs P (isDirectory q : Program ε Bool) :=
  .inl ⟨fs.isDirectory q, rfl⟩

theorem settles_isReadable (q : Path) : Settles fs P (isReadable q : Program ε Bool) :=
  .inl ⟨fs.isReadable q, rfl⟩

/-- A path that cannot be looked up counts as absent. -/
theorem settles_isPresent (q : Path) : Settles fs P (isPresent q : Program ε Bool) :=
  .inl ⟨_, outcome_isPresent q⟩

/-- The second of two tests is made only if the first one holds. -/
theorem Settles.isUsable_bind {b : Bool} {q : Path} {f : Bool → Program ε α}
    (hf : ∀ usable, Settles fs P (f usable)) :
    Settles fs P (if b then isReadable q >>= f else pure false >>= f) :=
  .ite ((settles_isReadable q).bind fun usable _ => hf usable) (hf false)

/-- A directory is listed or the cause is reported. -/
theorem settles_subdirectories {q : Path} {cause : String → ε} (h : ∀ reason, P (cause reason)) :
    Settles fs P (subdirectories q cause) := by
  unfold Settles subdirectories
  rw [outcome, FileSystem.answer, outcome]
  cases fs.subdirectories q with
  | ok names => exact .inl ⟨names, rfl⟩
  | error reason => exact .inr ⟨cause reason, rfl, h reason⟩

/-- A sequence ends in an error if its first part does, or else the rest. -/
theorem outcome_bind_eq_error {f : α → Program ε β} {e : Failure ε} :
    (p >>= f).outcome fs = .error e ↔
      p.outcome fs = .error e ∨ ∃ a, p.outcome fs = .ok a ∧ (f a).outcome fs = .error e := by
  rw [outcome_bind]
  cases p.outcome fs with
  | ok a =>
    constructor
    · intro h
      exact .inr ⟨a, rfl, h⟩
    · rintro (h | ⟨b, hb, h⟩)
      · cases h
      · obtain rfl := Except.ok.inj hb
        exact h
  | error e' =>
    constructor
    · intro h
      exact .inl (congrArg Except.error (Except.error.inj h))
    · rintro (h | ⟨b, hb, -⟩)
      · exact congrArg Except.error (Except.error.inj h)
      · cases hb

end ModulePath.Program
