import ModulePath.Proofs.Config.Objects
import ModulePath.Proofs.Config.Writing

/-!
# Stores in memory

A store in memory holds the data of a store (`LiveStore.Holds`) if the tree of each source stands
for the tree that the store has. What is looked up stands for the same data then (`Holds.get?`).
Trees that are loaded are copied, so loading one keeps this up with no more said (`Holds.load`), and
every store can be held (`holds_ofStore`).
-/

set_option autoImplicit false

namespace ModulePath.Config

namespace LiveStore

/-- The data that the trees in memory stand for. -/
def Holds (m : LiveStore) (st : Store) : Prop :=
  ∀ s, Option.Rel (fun n entries => m.heap.Reads (.dict n) (.dict entries)) (m.root s) (st.tree s)

variable {m m' : LiveStore} {st st' : Store} {heap : Heap} {s t : Source} {n : Nat} {key : String}
  {x : Cell} {v w : Value} {entries : Entries} {parts : List String}

theorem setRoot_root_self : (m.setRoot s n).root s = some n := if_pos rfl

theorem setRoot_root_of_ne (h : t ≠ s) : (m.setRoot s n).root t = m.root t := if_neg h

/-- A source has a dictionary for its root exactly if it has a tree, and the dictionary reads as the
tree. -/
theorem Holds.tree_cases (hm : m.Holds st) (s : Source) :
    (m.root s = none ∧ st.tree s = none) ∨
      ∃ n entries, m.root s = some n ∧ st.tree s = some entries ∧
        m.heap.Reads (.dict n) (.dict entries) := by
  have hsame := hm s
  generalize m.root s = root at hsame ⊢
  generalize st.tree s = tree at hsame ⊢
  cases hsame with
  | none => exact .inl ⟨rfl, rfl⟩
  | some hread => exact .inr ⟨_, _, rfl, rfl, hread⟩

/-- A source gets a new tree, and what the others have for trees stays as it is. -/
theorem Holds.setRoot (hm : m.Holds st) (hread : heap.Reads (.dict n) (.dict entries))
    (hothers : ∀ t r v, t ≠ s → m.root t = some r → m.heap.Reads (.dict r) v →
      heap.Reads (.dict r) v) :
    ({ m with heap }.setRoot s n).Holds (st.replace s entries) := by
  intro t
  by_cases ht : t = s
  · subst ht
    rw [setRoot_root_self, Store.tree_replace_self]
    exact .some hread
  · rw [setRoot_root_of_ne ht, Store.tree_replace_of_ne ht]
    rcases hm.tree_cases t with ⟨hroot, htree⟩ | ⟨r, tree, hroot, htree, hr⟩
    · exact hroot ▸ htree ▸ .none
    · rw [hroot, htree]
      exact .some (hothers t r _ ht hroot hr)

/-- What stands at a key reads as the setting there. -/
theorem Holds.settingIn? (hm : m.Holds st) (parts : List String) (s : Source) :
    Option.Rel m.heap.Reads (m.settingIn? parts s) (st.settingIn? parts s) := by
  rw [LiveStore.settingIn?, Store.settingIn?]
  rcases hm.tree_cases s with ⟨hroot, htree⟩ | ⟨n, entries, hroot, htree, hread⟩
  · rw [hroot, htree]
    exact .none
  · rw [hroot, htree]
    exact hread.cellAt? parts

/-- What a source says about a key reads as its value. -/
theorem Holds.valueIn? (hm : m.Holds st) (parts : List String) (s : Source) :
    Option.Rel m.heap.Reads (m.valueIn? parts s) (st.valueIn? parts s) := by
  have hsame := hm.settingIn? parts s
  unfold LiveStore.valueIn? Store.valueIn?
  unfold Store.settingIn? at hsame
  generalize m.settingIn? parts s = setting at hsame ⊢
  generalize (st.tree s).bind _ = setting' at hsame ⊢
  cases hsame with
  | none => exact .none
  | some hread =>
    -- null is an atom and stands for nothing on both sides
    cases hread with
    | atom a =>
      obtain ⟨v, hatom⟩ := a
      cases v with
      | null => exact .none
      | bool _ | int _ | real _ | str _ | set _ => exact .some (.atom _)
      | list _ | tuple _ | dict _ => cases hatom
    | list pairs hpairs => exact .some (.list pairs hpairs)
    | tuple pairs hpairs => exact .some (.tuple pairs hpairs)
    | dict rows hobject hrows => exact .some (.dict rows hobject hrows)

/-- What a key is looked up with stands for the value of the key. -/
theorem Holds.get? (hm : m.Holds st) (key : String) :
    Option.Rel m.heap.Reads (m.get? key) (st.get? key) := by
  rw [LiveStore.get?, Store.get?, LiveStore.getWithSource?, Store.getWithSource?]
  induction Source.ascending.reverse with
  | nil => exact .none
  | cons s rest ih =>
    have hsame := hm.valueIn? (keyParts key) s
    rw [List.findSome?_cons, List.findSome?_cons]
    generalize m.valueIn? (keyParts key) s = value at hsame ⊢
    generalize st.valueIn? (keyParts key) s = value' at hsame ⊢
    cases hsame with
    | none => exact ih
    | some hread => exact .some hread

/-! ## Loading -/

/-- A tree that replaces another one is entered apart from all that the sources hold. -/
theorem Holds.replace (hm : m.Holds st) (s : Source) (entries : Entries) :
    (m.replace s entries).Holds (st.replace s entries) := by
  obtain ⟨hextends, hread⟩ := Heap.enter_spec (.dict entries) m.heap
  exact hm.setRoot hread fun t r v _ _ hr => hr.of_extends hextends

theorem Holds.clear (hm : m.Holds st) (s : Source) : (m.clear s).Holds (st.clear s) := by
  intro t
  rw [LiveStore.clear, Store.clear]
  dsimp only
  split
  · exact .none
  · exact hm t

theorem Holds.clearAll (hm : m.Holds st) : m.clearAll.Holds st.clearAll := by
  intro t
  rw [LiveStore.clearAll, Store.clearAll]
  dsimp only
  split
  · exact hm t
  · exact .none

/-- A configuration is loaded into memory as it is into the store, or refused for the same
reason. -/
theorem Holds.load (hm : m.Holds st) (v : Value) (s : Source) :
    (∃ e, st.load v s = .error e ∧ m.load v s = .error e) ∨
      ∃ st' m', st.load v s = .ok st' ∧ m.load v s = .ok m' ∧ m'.Holds st' := by
  unfold LiveStore.load Store.load Store.loadFrom
  cases Store.checkFrom s.text v with
  | error e => exact .inl ⟨e, rfl, rfl⟩
  | ok =>
    cases v with
    | dict entries => exact .inr ⟨_, _, rfl, rfl, hm.replace s (Store.wrap entries)⟩
    | null | bool _ | int _ | real _ | str _ | list _ | tuple _ | set _ =>
      exact .inr ⟨_, _, rfl, rfl, hm⟩

/-- A source that is filled from a store reads as the tree of the store. -/
theorem Holds.fill {st₀ : Store} (hm : m.Holds st₀) (st : Store) (s : Source) :
    (m.fill st s).Holds ⟨fun t => if t = s then (st.tree t).or (st₀.tree t) else st₀.tree t⟩ := by
  rw [LiveStore.fill]
  cases htree : st.tree s with
  | none =>
    intro t
    by_cases ht : t = s
    · subst ht
      simpa [htree] using hm t
    · simpa [ht] using hm t
  | some entries =>
    intro t
    by_cases ht : t = s
    · subst ht
      simpa [htree, Store.replace] using hm.replace t entries t
    · simpa [ht, Store.replace] using hm.replace s entries t

end LiveStore

end ModulePath.Config
