import ModulePath.Text.Order

/-!
# Sorted names

What sorting does, told without how it is done: `Sorts` relates a list to its members in code point
order, repetitions included. There is one such arrangement of a list, and `sort` finds it
(`sorts_iff`), so that the order in which names come does not matter (`sort_eq_of_perm`).
-/

set_option autoImplicit false

namespace ModulePath.Text

/-- `a` does not come after `b`. -/
def NotAfter (a b : String) : Prop := before b a = false

/-- `sorted` has the members of `names` in code point order. -/
structure Sorts (sorted names : List String) : Prop where
  perm : sorted.Perm names
  ordered : sorted.Pairwise NotAfter

/-! ## The order -/

theorem not_after_of_before {a b : String} (h : before a b = true) : NotAfter a b := by
  unfold NotAfter
  rcases hba : before b a with _ | _
  · rfl
  · rw [← before_irrefl a, before_trans h hba]

/-- The order of texts is transitive. -/
theorem NotAfter.trans {a b c : String} (h : NotAfter a b) (h' : NotAfter b c) :
    NotAfter a c := by
  rcases before_or_eq_or_before a b with hab | rfl | hba
  · rcases before_or_eq_or_before b c with hbc | rfl | hcb
    · exact not_after_of_before (before_trans hab hbc)
    · exact h
    · exact absurd hcb (by rw [h']; exact Bool.false_ne_true)
  · exact h'
  · exact absurd hba (by rw [h]; exact Bool.false_ne_true)

theorem NotAfter.antisymm {a b : String} (h : NotAfter a b) (h' : NotAfter b a) : a = b := by
  rcases before_or_eq_or_before a b with hab | rfl | hba
  · exact absurd hab (by rw [h']; exact Bool.false_ne_true)
  · rfl
  · exact absurd hba (by rw [h]; exact Bool.false_ne_true)

/-! ## Sorting -/

theorem insertSorted_perm (x : String) (ys : List String) :
    (insertSorted x ys).Perm (x :: ys) := by
  induction ys with
  | nil => exact .refl _
  | cons y ys ih =>
    rw [insertSorted]
    split
    · exact (ih.cons y).trans (.swap x y ys)
    · exact .refl _

/-- A text is inserted where it keeps the order. -/
theorem insertSorted_ordered {x : String} {ys : List String} (h : ys.Pairwise NotAfter) :
    (insertSorted x ys).Pairwise NotAfter := by
  induction ys with
  | nil => exact List.pairwise_singleton NotAfter x
  | cons y ys ih =>
    obtain ⟨hy, hys⟩ := List.pairwise_cons.1 h
    rw [insertSorted]
    split
    case isTrue hyx =>
      -- what comes after `y` is `x` or was there before
      refine List.pairwise_cons.2 ⟨fun z hz => ?_, ih hys⟩
      rcases List.mem_cons.1 ((insertSorted_perm x ys).mem_iff.1 hz) with rfl | hz
      · exact not_after_of_before hyx
      · exact hy z hz
    case isFalse hyx =>
      have hxy : NotAfter x y := Bool.eq_false_iff.2 hyx
      refine List.pairwise_cons.2 ⟨fun z hz => ?_, h⟩
      rcases List.mem_cons.1 hz with rfl | hz
      · exact hxy
      · exact hxy.trans (hy z hz)

/-- Sorting sorts. -/
theorem sorts_sort (names : List String) : Sorts (sort names) names := by
  induction names with
  | nil => exact ⟨.refl _, .nil⟩
  | cons x names ih =>
    refine ⟨?_, insertSorted_ordered ih.ordered⟩
    exact (insertSorted_perm x (sort names)).trans (ih.perm.cons x)

/-- A list has one arrangement in order. -/
theorem Sorts.unique {sorted sorted' names : List String} (h : Sorts sorted names)
    (h' : Sorts sorted' names) : sorted = sorted' :=
  (h.perm.trans h'.perm.symm).eq_of_pairwise (fun _ _ _ _ hab hba => hab.antisymm hba)
    h.ordered h'.ordered

/-- There is one way to sort. -/
theorem sorts_iff {sorted names : List String} : Sorts sorted names ↔ sorted = sort names := by
  constructor
  · intro h
    exact h.unique (sorts_sort names)
  · rintro rfl
    exact sorts_sort names

/-- The order before sorting makes no difference. -/
theorem sort_eq_of_perm {names names' : List String} (h : names.Perm names') :
    sort names = sort names' :=
  sorts_iff.1 ⟨(sorts_sort names).perm.trans h, (sorts_sort names).ordered⟩

@[simp] theorem mem_sort {name : String} {names : List String} :
    name ∈ sort names ↔ name ∈ names :=
  (sorts_sort names).perm.mem_iff

/-- Without one name the others stay in order. -/
theorem sort_erase (name : String) (names : List String) :
    (sort names).erase name = sort (names.erase name) :=
  have h : Sorts (sort names) names := sorts_sort names
  sorts_iff.1 ⟨h.perm.erase name, h.ordered.sublist List.erase_sublist⟩

end ModulePath.Text
