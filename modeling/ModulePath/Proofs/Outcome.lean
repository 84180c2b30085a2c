import ModulePath.Fault

/-!
# Operations on loose data that succeed

When an operation that is put together from others gives an answer: all its parts give one.
-/

set_option autoImplicit false

namespace ModulePath.Outcome

variable {ε α β : Type}

/-- The inversion of a sequence of operations. -/
theorem seq_eq_ok {r : Outcome ε α} {f : α → Outcome ε β} {b : β} :
    (r >>= f) = .ok b ↔ ∃ a, r = .ok a ∧ f a = .ok b := by
  cases r with
  | ok a =>
    constructor
    · intro h
      exact ⟨a, rfl, h⟩
    · rintro ⟨_, ha, h⟩
      cases ha
      exact h
  | error e =>
    constructor
    · intro h
      cases h
    · rintro ⟨_, ha, -⟩
      cases ha

/-- A check before an operation. -/
theorem check_seq_eq_ok {r : Outcome ε Unit} {f : Unit → Outcome ε β} {b : β} :
    (r >>= f) = .ok b ↔ r = .ok () ∧ f () = .ok b := by
  rw [seq_eq_ok]
  constructor
  · rintro ⟨⟨⟩, hr, h⟩
    exact ⟨hr, h⟩
  · rintro ⟨hr, h⟩
    exact ⟨(), hr, h⟩

/-- A check before an operation, when the whole fails: the check does, or it succeeds and the
operation fails. -/
theorem check_seq_eq_error {r : Outcome ε Unit} {f : Unit → Outcome ε β} {e : Failure ε} :
    (r >>= f) = .error e ↔ r = .error e ∨ r = .ok () ∧ f () = .error e := by
  cases r with
  | ok a => exact ⟨fun h => .inr ⟨rfl, h⟩, fun h => h.elim nofun (·.2)⟩
  | error e' =>
    constructor
    · intro h
      obtain rfl : e' = e := Except.error.inj h
      exact .inl rfl
    · rintro (h | ⟨h, -⟩)
      · obtain rfl : e' = e := Except.error.inj h
        rfl
      · cases h

theorem pure_eq_ok {a b : α} : (pure a : Outcome ε α) = .ok b ↔ a = b := by
  constructor
  · intro h
    exact Except.ok.inj h
  · rintro rfl
    rfl

/-- A result is mapped, and a failure stays. -/
theorem map_eq_ok {r : Outcome ε α} {g : α → β} {b : β} :
    r.map g = .ok b ↔ ∃ a, r = .ok a ∧ g a = b := by
  cases r with
  | ok a => simp [Except.map]
  | error e => simp [Except.map]

theorem refuse_ne_ok {cause : ε} {a : α} : (refuse cause : Outcome ε α) ≠ .ok a := by
  intro h
  cases h

theorem fault_ne_ok {f : Fault} {a : α} : (fault f : Outcome ε α) ≠ .ok a := by
  intro h
  cases h

/-- To change the causes changes no result. -/
theorem mapCause_eq_ok {δ : Type} {g : ε → δ} {r : Outcome ε α} {a : α} :
    mapCause g r = .ok a ↔ r = .ok a := by
  cases r with
  | ok b => simp [mapCause]
  | error e => simp [mapCause]

theorem exists_of_isOk {r : Outcome ε α} (h : r.isOk = true) : ∃ a, r = .ok a := by
  cases r with
  | ok a => exact ⟨a, rfl⟩
  | error e => cases h

theorem ok_bind (a : α) (f : α → Outcome ε β) : ((.ok a : Outcome ε α) >>= f) = f a := rfl

/-- An operation whose answer is only wrapped. -/
theorem bind_pure_eq_map (r : Outcome ε α) (g : α → β) : (r >>= fun a => pure (g a)) = r.map g := by
  cases r <;> rfl

/-- A check after which nothing is left to do. -/
theorem bind_pure_unit (r : Outcome ε Unit) : (r >>= fun _ => pure ()) = r := by
  cases r <;> rfl

end ModulePath.Outcome
