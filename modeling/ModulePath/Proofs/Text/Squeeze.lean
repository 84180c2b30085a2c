import Mathlib.Data.List.Infix

/-!
# Runs written once

`squeeze a` writes every run of `a` in a list once and leaves the rest as it is. A list is squeezed
already exactly when `a` never stands twice in a row (`squeeze_eq_self_iff`). Squeezing a beginning
of a list gives a beginning of the squeezed list (`squeeze_prefix`), and however the squeezed list
is cut in two, the list itself can be cut to match (`exists_append_of_squeeze`).
-/

set_option autoImplicit false

namespace ModulePath

variable {α β : Type} {a b c : α} {l l₁ l₂ : List α}

/-- A member is doubled at the beginning or later. -/
theorem doubled_infix_cons_iff :
    [a, a] <:+: b :: l ↔ (b = a ∧ l.head? = some a) ∨ [a, a] <:+: l := by
  have hdoubled : [a, a] <+: b :: l ↔ b = a ∧ l.head? = some a := by
    cases l with
    | nil => simp
    | cons c l => simp [eq_comm]
  rw [List.infix_cons_iff, hdoubled]

variable [DecidableEq α]

/-- A list with each run of `a` in it written once. -/
def squeeze (a : α) : List α → List α
  | [] => []
  | b :: l => if b = a ∧ l.head? = some a then squeeze a l else b :: squeeze a l

@[simp] theorem squeeze_nil : squeeze a [] = [] := rfl

/-- The first of two is left out. -/
theorem squeeze_cons_self (h : l.head? = some a) : squeeze a (a :: l) = squeeze a l :=
  if_pos ⟨rfl, h⟩

/-- A member stays unless it repeats the one that follows. -/
theorem squeeze_cons (h : b = a → l.head? ≠ some a) : squeeze a (b :: l) = b :: squeeze a l :=
  if_neg fun hboth => h hboth.1 hboth.2

theorem squeeze_cons_of_ne (h : b ≠ a) : squeeze a (b :: l) = b :: squeeze a l :=
  squeeze_cons fun hb => absurd hb h

@[simp] theorem squeeze_singleton (a b : α) : squeeze a [b] = [b] := squeeze_cons (by simp)

/-- A list begins with a doubled `a`, or squeezing keeps its first member. -/
theorem squeeze_cons_cases (a b : α) (l : List α) :
    (b = a ∧ l.head? = some a ∧ squeeze a (b :: l) = squeeze a l) ∨
      ((b = a → l.head? ≠ some a) ∧ squeeze a (b :: l) = b :: squeeze a l) := by
  by_cases h : b = a ∧ l.head? = some a
  · exact .inl ⟨h.1, h.2, if_pos h⟩
  · exact .inr ⟨not_and.1 h, if_neg h⟩

/-! ## The ends of a list -/

@[simp] theorem head?_squeeze : (squeeze a l).head? = l.head? := by
  induction l with
  | nil => rfl
  | cons b l ih =>
    rcases squeeze_cons_cases a b l with ⟨rfl, hl, hsqueeze⟩ | ⟨-, hsqueeze⟩
    · rw [hsqueeze, ih, hl, List.head?_cons]
    · rw [hsqueeze, List.head?_cons, List.head?_cons]

@[simp] theorem getLast?_squeeze : (squeeze a l).getLast? = l.getLast? := by
  induction l with
  | nil => rfl
  | cons b l ih =>
    rcases squeeze_cons_cases a b l with ⟨rfl, hl, hsqueeze⟩ | ⟨-, hsqueeze⟩
    · obtain ⟨rest, rfl⟩ := List.head?_eq_some_iff.1 hl
      rw [hsqueeze, ih, List.getLast?_cons_cons]
    · rw [hsqueeze, List.getLast?_cons, List.getLast?_cons, ih]

@[simp] theorem squeeze_eq_nil_iff : squeeze a l = [] ↔ l = [] := by
  rw [← List.head?_eq_none_iff, head?_squeeze, List.head?_eq_none_iff]

/-! ## One member -/

/-- Only a run is squeezed to one member. -/
theorem squeeze_eq_singleton_iff : squeeze a l = [a] ↔ ∃ n, l = List.replicate (n + 1) a := by
  constructor
  · intro h
    induction l with
    | nil => cases h
    | cons b l ih =>
      rcases squeeze_cons_cases a b l with ⟨rfl, -, hsqueeze⟩ | ⟨-, hsqueeze⟩
      · obtain ⟨n, rfl⟩ := ih (hsqueeze.symm.trans h)
        exact ⟨n + 1, rfl⟩
      · obtain ⟨rfl, hrest⟩ := List.cons.inj (hsqueeze.symm.trans h)
        obtain rfl := squeeze_eq_nil_iff.1 hrest
        exact ⟨0, rfl⟩
  · rintro ⟨n, rfl⟩
    induction n with
    | zero => exact squeeze_singleton a a
    | succ n ih =>
      rw [List.replicate_succ, squeeze_cons_self rfl, ih]

theorem squeeze_eq_singleton_iff_of_ne (h : c ≠ a) : squeeze a l = [c] ↔ l = [c] := by
  constructor
  · intro hl
    cases l with
    | nil => cases hl
    | cons b l =>
      have hfirst : (squeeze a (b :: l)).head? = some c := by rw [hl, List.head?_cons]
      obtain rfl := Option.some.inj (head?_squeeze.symm.trans hfirst)
      rw [squeeze_cons_of_ne h] at hl
      rw [squeeze_eq_nil_iff.1 (List.cons.inj hl).2]
  · rintro rfl
    exact squeeze_singleton a c

/-! ## Squeezed lists -/

/-- A squeezed list has no doubled `a`. -/
theorem not_doubled_infix_squeeze : ¬ [a, a] <:+: squeeze a l := by
  induction l with
  | nil => simp
  | cons b l ih =>
    rcases squeeze_cons_cases a b l with ⟨-, -, hsqueeze⟩ | ⟨hne, hsqueeze⟩
    · rwa [hsqueeze]
    · rw [hsqueeze, doubled_infix_cons_iff, head?_squeeze, not_or, not_and]
      exact ⟨hne, ih⟩

/-- A list is squeezed already when no `a` is doubled in it. -/
theorem squeeze_eq_self_iff : squeeze a l = l ↔ ¬ [a, a] <:+: l := by
  constructor
  · intro h
    rw [← h]
    exact not_doubled_infix_squeeze
  · intro h
    induction l with
    | nil => rfl
    | cons b l ih =>
      rw [doubled_infix_cons_iff, not_or, not_and] at h
      rw [squeeze_cons h.1, ih h.2]

/-- Members other than `a` stay, as often as they are there. -/
theorem count_squeeze (h : c ≠ a) : (squeeze a l).count c = l.count c := by
  induction l with
  | nil => rfl
  | cons b l ih =>
    rcases squeeze_cons_cases a b l with ⟨rfl, -, hsqueeze⟩ | ⟨-, hsqueeze⟩
    · rw [hsqueeze, ih, List.count_cons_of_ne h.symm]
    · rw [hsqueeze, List.count_cons, List.count_cons, ih]

/-- Renaming members and squeezing may be done in either order, if only `a` gets its new name. -/
theorem squeeze_map [DecidableEq β] {f : α → β} (hf : ∀ b, f b = f a ↔ b = a) :
    squeeze (f a) (l.map f) = (squeeze a l).map f := by
  induction l with
  | nil => rfl
  | cons b l ih =>
    have hhead : (l.map f).head? = some (f a) ↔ l.head? = some a := by
      simp [Option.map_eq_some_iff, hf]
    rw [List.map_cons]
    rcases squeeze_cons_cases a b l with ⟨rfl, hl, hsqueeze⟩ | ⟨hne, hsqueeze⟩
    · rw [hsqueeze, squeeze_cons_self (hhead.2 hl), ih]
    · rw [hsqueeze, squeeze_cons, ih, List.map_cons]
      exact fun hb hl => hne ((hf b).1 hb) (hhead.1 hl)

/-! ## Parts of a list -/

/-- What squeezing adds to a part of a list, it adds to the part with one more member before it. -/
theorem squeeze_cons_append {m : List α} (hl₁ : l₁ ≠ [])
    (h : squeeze a (l₁ ++ l₂) = squeeze a l₁ ++ m) :
    squeeze a (b :: l₁ ++ l₂) = squeeze a (b :: l₁) ++ m := by
  have hhead : (l₁ ++ l₂).head? = l₁.head? := List.head?_append_of_ne_nil _ hl₁
  rw [List.cons_append]
  rcases squeeze_cons_cases a b l₁ with ⟨rfl, hl, hsqueeze⟩ | ⟨hne, hsqueeze⟩
  · rw [hsqueeze, squeeze_cons_self (hhead.trans hl), h]
  · rw [hsqueeze, squeeze_cons (hhead ▸ hne), h, List.cons_append]

/-- Two lists are squeezed apart unless both have an `a` where they meet. -/
theorem squeeze_append (h : l₁.getLast? = some a → l₂.head? ≠ some a) :
    squeeze a (l₁ ++ l₂) = squeeze a l₁ ++ squeeze a l₂ := by
  induction l₁ with
  | nil => rfl
  | cons b l₁ ih =>
    cases l₁ with
    | nil =>
      have hfirst : b = a → l₂.head? ≠ some a := by
        rintro rfl
        exact h rfl
      rw [squeeze_singleton, List.singleton_append, List.singleton_append, squeeze_cons hfirst]
    | cons c l₁ => exact squeeze_cons_append (List.cons_ne_nil c l₁) (ih h)

/-- Anywhere in a list the first of two is left out. -/
theorem squeeze_append_doubled (a : α) (l₁ l₂ : List α) :
    squeeze a (l₁ ++ a :: a :: l₂) = squeeze a (l₁ ++ a :: l₂) := by
  induction l₁ with
  | nil => exact squeeze_cons_self rfl
  | cons b l₁ ih =>
    have hhead : (l₁ ++ a :: a :: l₂).head? = (l₁ ++ a :: l₂).head? := by
      rw [List.head?_append, List.head?_append, List.head?_cons, List.head?_cons]
    rw [List.cons_append, List.cons_append]
    rcases squeeze_cons_cases a b (l₁ ++ a :: l₂) with ⟨rfl, hl, hsqueeze⟩ | ⟨hne, hsqueeze⟩
    · rw [hsqueeze, squeeze_cons_self (hhead.trans hl), ih]
    · rw [hsqueeze, squeeze_cons (hhead ▸ hne), ih]

/-- Squeezing a beginning of a list gives a beginning of the squeezed list. -/
theorem squeeze_prefix (a : α) (l₁ l₂ : List α) : squeeze a l₁ <+: squeeze a (l₁ ++ l₂) := by
  induction l₁ with
  | nil => exact List.nil_prefix
  | cons b l₁ ih =>
    cases l₁ with
    | nil =>
      have hhead : (squeeze a (b :: l₂)).head? = some b := head?_squeeze
      obtain ⟨rest, hrest⟩ := List.head?_eq_some_iff.1 hhead
      rw [squeeze_singleton, List.singleton_append, hrest]
      exact ⟨rest, rfl⟩
    | cons c l₁ =>
      obtain ⟨m, hm⟩ := ih
      exact ⟨m, (squeeze_cons_append (List.cons_ne_nil c l₁) hm.symm).symm⟩

/-- However a squeezed list is cut in two, the list itself can be cut to match. -/
theorem exists_append_of_squeeze (h : squeeze a l = l₁ ++ l₂) :
    ∃ k₁ k₂, l = k₁ ++ k₂ ∧ squeeze a k₁ = l₁ ∧ squeeze a k₂ = l₂ := by
  induction l generalizing l₁ with
  | nil =>
    obtain ⟨rfl, rfl⟩ := List.append_eq_nil_iff.1 h.symm
    exact ⟨[], [], rfl, rfl, rfl⟩
  | cons b l ih =>
    cases l₁ with
    | nil => exact ⟨[], b :: l, rfl, rfl, h⟩
    | cons c l₁ =>
      rcases squeeze_cons_cases a b l with ⟨rfl, hl, hsqueeze⟩ | ⟨hne, hsqueeze⟩
      · -- the first of two goes with the second one
        obtain ⟨k₁, k₂, rfl, hk₁, hk₂⟩ := ih (hsqueeze.symm.trans h)
        have hne : k₁ ≠ [] := by
          rintro rfl
          cases hk₁
        have hhead : k₁.head? = some b := by
          rw [← hl, List.head?_append_of_ne_nil _ hne]
        exact ⟨b :: k₁, k₂, rfl, (squeeze_cons_self hhead).trans hk₁, hk₂⟩
      · obtain ⟨rfl, hrest⟩ := List.cons.inj (hsqueeze.symm.trans h)
        obtain ⟨k₁, k₂, rfl, rfl, hk₂⟩ := ih hrest
        refine ⟨b :: k₁, k₂, rfl, squeeze_cons fun hb hhead => hne hb ?_, hk₂⟩
        rw [List.head?_append, hhead, Option.some_or]

end ModulePath
