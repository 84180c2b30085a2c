import ModulePath.Descriptor.Read
import ModulePath.Proofs.Outcome.Members

/-!
# Paths and sets of paths that are read

A path is read from its own text, if it is usable (`path?_eq_ok_iff`), and a set of paths from any
list, tuple or set of usable ones, of which it has the members (`pathSet?_eq_ok_iff`).
-/

set_option autoImplicit false

namespace ModulePath.Descriptor

variable {v : Value} {key : String}

theorem refuse_ne_ok {α : Type} {e : Error} {a : α} : (refuse e : Outcome Error α) ≠ .ok a := by
  unfold refuse
  split
  · exact Outcome.refuse_ne_ok
  · exact Outcome.fault_ne_ok

/-! ## Paths -/

/-- A path is read from a text without a fault, as the text. -/
theorem path?_eq_ok_iff {p : String} :
    path? v = .ok p ↔ v = .str p ∧ rulePathFault? p = none := by
  cases v with
  | str s =>
    cases hfault : rulePathFault? s with
    | none =>
      have hread : path? (.str s) = .ok s := by simp [path?, rulePath?, hfault]
      rw [hread]
      constructor
      · intro h
        obtain rfl : s = p := Except.ok.inj h
        exact ⟨rfl, hfault⟩
      · rintro ⟨h, -⟩
        rw [Value.str.inj h]
    | some f =>
      have hread : path? (.str s) = refuse (.rulePath (.str s) f) := by
        simp [path?, rulePath?, hfault]
      rw [hread]
      constructor
      · intro h
        exact absurd h refuse_ne_ok
      · rintro ⟨h, hp⟩
        obtain rfl := Value.str.inj h
        rw [hfault] at hp
        contradiction
  | null | bool _ | int _ | real _ | list _ | tuple _ | set _ | dict _ =>
    constructor
    · intro h
      exact absurd h refuse_ne_ok
    · rintro ⟨h, -⟩
      cases h

theorem path?_of_valid {p : String} (h : rulePathFault? p = none) : path? (.str p) = .ok p :=
  path?_eq_ok_iff.2 ⟨rfl, h⟩

/-- Paths are read from texts without a fault, as the texts. -/
theorem mapM_path?_eq_ok_iff {items : List Value} {ps : List String} :
    items.mapM path? = .ok ps ↔ items = ps.map .str ∧ ∀ p ∈ ps, rulePathFault? p = none := by
  rw [Outcome.mapM_eq_ok]
  simp only [path?_eq_ok_iff]
  constructor
  · intro h
    induction h with
    | nil => exact ⟨rfl, List.forall_mem_nil _⟩
    | cons hp _ ih =>
      obtain ⟨rfl, hp⟩ := hp
      obtain ⟨rfl, hps⟩ := ih
      exact ⟨rfl, List.forall_mem_cons.2 ⟨hp, hps⟩⟩
  · rintro ⟨rfl, hps⟩
    rw [List.forall₂_map_left_iff, List.forall₂_same]
    intro p hp
    exact ⟨rfl, hps p hp⟩

/-! ## Collections -/

/-- A list, a tuple or a set of these members. -/
def IsCollectionOf (items : List Value) (v : Value) : Prop :=
  v = .list items ∨ v = .tuple items ∨ v = .set items

/-- The members of a collection are told by it. -/
theorem IsCollectionOf.unique {items others : List Value} (h : IsCollectionOf items v)
    (h' : IsCollectionOf others v) : items = others := by
  rcases h with rfl | rfl | rfl <;> simpa [IsCollectionOf] using h'

theorem pathSet?_of_isCollectionOf {items : List Value} (h : IsCollectionOf items v) :
    pathSet? key v = (items.mapM path?).map TextSet.ofList := by
  rcases h with rfl | rfl | rfl <;> rfl

/-- What is no collection is quoted. -/
theorem pathSet?_of_not_isCollectionOf (h : ∀ items, ¬ IsCollectionOf items v) :
    pathSet? key v = refuse (.notPathList key v) := by
  cases v with
  | list items => exact absurd (.inl rfl) (h items)
  | tuple items => exact absurd (.inr (.inl rfl)) (h items)
  | set items => exact absurd (.inr (.inr rfl)) (h items)
  | null | bool _ | int _ | real _ | str _ | dict _ => rfl

/-- A set is read from a collection of usable paths, and has them as its members. -/
theorem pathSet?_eq_ok_iff {paths : TextSet} :
    pathSet? key v = .ok paths ↔
      ∃ ps : List String, IsCollectionOf (ps.map .str) v ∧ (∀ p ∈ ps, rulePathFault? p = none) ∧
        TextSet.ofList ps = paths := by
  by_cases hv : ∃ items, IsCollectionOf items v
  case neg =>
    rw [pathSet?_of_not_isCollectionOf (not_exists.1 hv)]
    constructor
    · intro h
      exact absurd h refuse_ne_ok
    · rintro ⟨ps, hps, -⟩
      exact absurd ⟨_, hps⟩ hv
  case pos =>
    obtain ⟨items, hitems⟩ := hv
    rw [pathSet?_of_isCollectionOf hitems, Outcome.map_eq_ok]
    simp only [mapM_path?_eq_ok_iff]
    constructor
    · rintro ⟨ps, ⟨rfl, hvalid⟩, hpaths⟩
      exact ⟨ps, hitems, hvalid, hpaths⟩
    · rintro ⟨ps, hps, hvalid, hpaths⟩
      exact ⟨ps, ⟨hitems.unique hps, hvalid⟩, hpaths⟩

end ModulePath.Descriptor
