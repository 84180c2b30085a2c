import ModulePath.Text.Order

/-!
# Sets of texts

A finite set of texts, kept as a list in strict code point order. The order is part of the type, so
two sets with the same members are equal (`TextSet.ext`).
-/

set_option autoImplicit false

namespace ModulePath

/-- A finite set of texts. -/
structure TextSet where
  elements : List String
  ordered : elements.Pairwise fun a b => Text.before a b = true
deriving DecidableEq

namespace TextSet

/-- The set without members. -/
def empty : TextSet := ⟨[], .nil⟩

instance : Inhabited TextSet := ⟨empty⟩

/-- The number of members. -/
def size (s : TextSet) : Nat := s.elements.length

/-- Whether a text is a member. -/
def contains (s : TextSet) (x : String) : Bool := s.elements.contains x

/-! ## Construction -/

/-- Put a text into an ordered list, unless it is there. -/
def insertInto (x : String) : List String → List String
  | [] => [x]
  | y :: ys =>
    if Text.before x y then x :: y :: ys
    else if x = y then y :: ys
    else y :: insertInto x ys

theorem mem_insertInto {x z : String} {ys : List String} :
    z ∈ insertInto x ys ↔ z = x ∨ z ∈ ys := by
  induction ys with
  | nil => simp [insertInto]
  | cons y ys ih =>
    unfold insertInto
    split
    · simp
    · split
      · next h => subst h; simp
      · simp only [List.mem_cons, ih]
        exact or_left_comm

theorem pairwise_insertInto {x : String} {ys : List String}
    (h : ys.Pairwise fun a b => Text.before a b = true) :
    (insertInto x ys).Pairwise fun a b => Text.before a b = true := by
  induction ys with
  | nil => simp [insertInto]
  | cons y ys ih =>
    have hy := List.pairwise_cons.1 h
    unfold insertInto
    split
    · next hxy =>
      refine List.pairwise_cons.2 ⟨fun z hz => ?_, h⟩
      rcases List.mem_cons.1 hz with rfl | hz
      · exact hxy
      · exact Text.before_trans hxy (hy.1 z hz)
    · split
      · exact h
      · next hxy hne =>
        refine List.pairwise_cons.2 ⟨fun z hz => ?_, ih hy.2⟩
        rcases mem_insertInto.1 hz with rfl | hz
        · rcases Text.before_or_eq_or_before z y with h | h | h
          · exact absurd h hxy
          · exact absurd h hne
          · exact h
        · exact hy.1 z hz

/-- A set with one text more. -/
def insert (s : TextSet) (x : String) : TextSet :=
  ⟨insertInto x s.elements, pairwise_insertInto s.ordered⟩

/-- The set of the members of a list. -/
def ofList (xs : List String) : TextSet := xs.foldl insert empty

/-! ## Members -/

instance : Membership String TextSet := ⟨fun s x => x ∈ s.elements⟩

theorem mem_def {x : String} {s : TextSet} : x ∈ s ↔ x ∈ s.elements := Iff.rfl

@[simp] theorem contains_iff {x : String} {s : TextSet} : s.contains x = true ↔ x ∈ s := by
  simp [contains, mem_def]

@[simp] theorem not_mem_empty {x : String} : ¬ x ∈ empty := by simp [mem_def, empty]

@[simp] theorem mem_insert {x z : String} {s : TextSet} : z ∈ s.insert x ↔ z = x ∨ z ∈ s :=
  mem_insertInto

@[simp] theorem mem_ofList {z : String} {xs : List String} : z ∈ ofList xs ↔ z ∈ xs := by
  suffices h : ∀ s : TextSet, z ∈ xs.foldl insert s ↔ z ∈ s ∨ z ∈ xs by
    simpa [ofList] using h empty
  induction xs with
  | nil => simp
  | cons x xs ih =>
    intro s
    simp only [List.foldl_cons, ih, mem_insert, List.mem_cons]
    constructor
    · rintro ((h | h) | h)
      · exact .inr (.inl h)
      · exact .inl h
      · exact .inr (.inr h)
    · rintro (h | h | h)
      · exact .inl (.inr h)
      · exact .inl (.inl h)
      · exact .inr h

/-! ## Extensionality -/

theorem eq_of_mem_iff {xs ys : List String} (hx : xs.Pairwise fun a b => Text.before a b = true)
    (hy : ys.Pairwise fun a b => Text.before a b = true) (h : ∀ z, z ∈ xs ↔ z ∈ ys) : xs = ys := by
  induction xs generalizing ys with
  | nil =>
    cases ys with
    | nil => rfl
    | cons y ys => simpa using h y
  | cons x xs ih =>
    cases ys with
    | nil => simpa using h x
    | cons y ys =>
      have px := List.pairwise_cons.1 hx
      have py := List.pairwise_cons.1 hy
      have hxy : x = y := by
        rcases List.mem_cons.1 ((h x).1 List.mem_cons_self) with h₁ | h₁
        · exact h₁
        rcases List.mem_cons.1 ((h y).2 List.mem_cons_self) with h₂ | h₂
        · exact h₂.symm
        have := Text.before_trans (px.1 y h₂) (py.1 x h₁)
        simp [Text.before_irrefl] at this
      subst hxy
      have hrest : ∀ z, z ∈ xs ↔ z ∈ ys := by
        intro z
        have hz := h z
        simp only [List.mem_cons] at hz
        constructor
        · intro hm
          rcases hz.1 (.inr hm) with rfl | hm'
          · have := px.1 z hm
            simp [Text.before_irrefl] at this
          · exact hm'
        · intro hm
          rcases hz.2 (.inr hm) with rfl | hm'
          · have := py.1 z hm
            simp [Text.before_irrefl] at this
          · exact hm'
      rw [ih px.2 py.2 hrest]

/-- Sets with the same members are equal. -/
theorem ext {s t : TextSet} (h : ∀ z, z ∈ s ↔ z ∈ t) : s = t := by
  obtain ⟨xs, hx⟩ := s
  obtain ⟨ys, hy⟩ := t
  have : xs = ys := eq_of_mem_iff hx hy h
  subst this
  rfl

end TextSet

end ModulePath
