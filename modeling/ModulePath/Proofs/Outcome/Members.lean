import Mathlib.Data.List.Forall2
import ModulePath.Proofs.Outcome

/-!
# Operations on the members of a list

A list is gone through with an answer for each of its members. If one fails, the first that does
decides how going through the list ends.
-/

set_option autoImplicit false

namespace ModulePath.Outcome

variable {ε α β : Type}

/-- Every member of a list has an answer, in the order of the members. -/
theorem mapM_eq_ok {f : α → Outcome ε β} {xs : List α} {ys : List β} :
    xs.mapM f = .ok ys ↔ List.Forall₂ (fun x y => f x = .ok y) xs ys := by
  induction xs generalizing ys with
  | nil =>
    rw [List.mapM_nil, pure_eq_ok, List.forall₂_nil_left_iff]
    exact eq_comm
  | cons x xs ih =>
    rw [List.mapM_cons, seq_eq_ok, List.forall₂_cons_left_iff]
    simp only [seq_eq_ok, ih, pure_eq_ok]
    constructor
    · rintro ⟨y, hy, rest, hrest, rfl⟩
      exact ⟨y, rest, hy, hrest, rfl⟩
    · rintro ⟨y, rest, hy, hrest, rfl⟩
      exact ⟨y, hy, rest, hrest, rfl⟩

/-- A list is gone through if each member gives a result. -/
theorem exists_mapM_eq_ok {f : α → Outcome ε β} {xs : List α} :
    (∃ ys, xs.mapM f = .ok ys) ↔ ∀ x ∈ xs, ∃ y, f x = .ok y := by
  simp only [mapM_eq_ok]
  induction xs with
  | nil => simp
  | cons x xs ih =>
    rw [List.forall_mem_cons, ← ih]
    constructor
    · rintro ⟨ys, h⟩
      obtain ⟨y, rest, hy, hrest, rfl⟩ := List.forall₂_cons_left_iff.1 h
      exact ⟨⟨y, hy⟩, rest, hrest⟩
    · rintro ⟨⟨y, hy⟩, rest, hrest⟩
      exact ⟨y :: rest, .cons hy hrest⟩

/-! ## The first member of a list -/

theorem not_exists_first_nil {P Q : α → Prop} :
    ¬ ∃ before x after, ([] : List α) = before ++ x :: after ∧ (∀ y ∈ before, P y) ∧ Q x := by
  rintro ⟨before, x, after, h, -⟩
  exact List.append_ne_nil_of_right_ne_nil before (List.cons_ne_nil x after) h.symm

/-- The first member with `Q`, after members with `P` alone, is the head or is in the tail. -/
theorem exists_first_cons_iff {P Q : α → Prop} {x : α} {xs : List α} :
    (∃ before y after, x :: xs = before ++ y :: after ∧ (∀ z ∈ before, P z) ∧ Q y) ↔
      Q x ∨ P x ∧ ∃ before y after, xs = before ++ y :: after ∧ (∀ z ∈ before, P z) ∧ Q y := by
  constructor
  · rintro ⟨before, y, after, hxs, hbefore, hy⟩
    cases before with
    | nil =>
      obtain ⟨rfl, -⟩ := List.cons.inj hxs
      exact .inl hy
    | cons z before =>
      obtain ⟨rfl, rfl⟩ := List.cons.inj hxs
      obtain ⟨hx, hbefore⟩ := List.forall_mem_cons.1 hbefore
      exact .inr ⟨hx, before, y, after, rfl, hbefore, hy⟩
  · rintro (hx | ⟨hx, before, y, after, rfl, hbefore, hy⟩)
    · exact ⟨[], x, xs, rfl, List.forall_mem_nil _, hx⟩
    · exact ⟨x :: before, y, after, rfl, List.forall_mem_cons.2 ⟨hx, hbefore⟩, hy⟩

/-! ## Checks in turn -/

/-- Checks that are made in turn all have to succeed. -/
theorem forM_eq_ok_iff {f : α → Outcome ε Unit} {xs : List α} :
    forM xs f = .ok () ↔ ∀ x ∈ xs, f x = .ok () := by
  induction xs with
  | nil => exact ⟨fun _ => List.forall_mem_nil _, fun _ => rfl⟩
  | cons x xs ih => rw [List.forM_cons, check_seq_eq_ok, ih, List.forall_mem_cons]

/-- Checks that are made in turn fail as the first of them that fails. -/
theorem forM_eq_error_iff {f : α → Outcome ε Unit} {xs : List α} {e : Failure ε} :
    forM xs f = .error e ↔
      ∃ before x after, xs = before ++ x :: after ∧ (∀ y ∈ before, f y = .ok ()) ∧
        f x = .error e := by
  induction xs with
  | nil => exact ⟨nofun, fun h => absurd h not_exists_first_nil⟩
  | cons x xs ih => rw [List.forM_cons, check_seq_eq_error, ih, exists_first_cons_iff]

end ModulePath.Outcome
