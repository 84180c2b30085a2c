import ModulePath.Value.Basic

/-!
# Texts among data

A text is the same key as itself and as nothing else, so it is found in a dictionary and kept in a
set as it stands, whatever other data are there (`str_mem_members`). Sorting neither loses nor adds
data (`mem_of_sort?_eq_some`). What is the same key as a text is a text, so a list has nothing but
texts when the set of its members has (`forall_isText_members`).

A list can be sorted unless two of its members have no order (`exists_unordered_of_sort?_eq_none`),
so texts can. Not every such pair is come across, but a list whose members fall into two parts
without an order between them cannot be sorted (`sort?_eq_none_of_divided`).
-/

set_option autoImplicit false

namespace ModulePath.Value

theorem keyEq_str_iff {v : Value} {s : String} : keyEq v (.str s) = true ↔ v = .str s := by
  cases v with
  | str t => simp [keyEq]
  | null | bool _ | int _ | real _ | list _ | tuple _ | set _ | dict _ =>
    simp [keyEq, numberEq?, toInt?]

theorem not_keyEq_str {v : Value} {s : String} (h : v ≠ .str s) : keyEq v (.str s) = false :=
  Bool.eq_false_iff.2 fun hkey => h (keyEq_str_iff.1 hkey)

/-! ## Sets -/

theorem mem_of_insertSorted?_eq_some {v : Value} {ws sorted : List Value}
    (h : insertSorted? v ws = some sorted) (w : Value) : w ∈ sorted ↔ w = v ∨ w ∈ ws := by
  induction ws generalizing sorted with
  | nil =>
    obtain rfl := Option.some.inj h
    exact List.mem_cons
  | cons x ws ih =>
    obtain ⟨before, -, h⟩ := Option.bind_eq_some_iff.1 h
    cases before with
    | true =>
      obtain ⟨rest, hrest, h⟩ := Option.bind_eq_some_iff.1 h
      obtain rfl := Option.some.inj h
      rw [List.mem_cons, ih hrest, List.mem_cons]
      exact or_left_comm
    | false =>
      obtain rfl := Option.some.inj h
      exact List.mem_cons

/-- Sorting a list that is not empty puts its first member among the others. -/
theorem sort?_cons_eq_some_iff {v : Value} {vs sorted : List Value} :
    sort? (v :: vs) = some sorted ↔ ∃ ws, sort? vs = some ws ∧ insertSorted? v ws = some sorted :=
  Option.bind_eq_some_iff

/-- Sorting keeps the members. -/
theorem mem_of_sort?_eq_some {vs sorted : List Value} (h : sort? vs = some sorted) (w : Value) :
    w ∈ sorted ↔ w ∈ vs := by
  induction vs generalizing sorted with
  | nil =>
    obtain rfl := Option.some.inj h
    exact Iff.rfl
  | cons v vs ih =>
    obtain ⟨ws, hws, h⟩ := sort?_cons_eq_some_iff.1 h
    rw [mem_of_insertSorted?_eq_some h, ih hws, List.mem_cons]

/-- No text is lost where repeated keys are left out. -/
theorem str_mem_distinct {s : String} {vs : List Value} : .str s ∈ distinct vs ↔ .str s ∈ vs := by
  induction vs with
  | nil => exact Iff.rfl
  | cons v vs ih =>
    rw [distinct, List.mem_cons, List.mem_cons, List.mem_filter, ih]
    by_cases h : v = .str s
    · simp [h]
    · simp [not_keyEq_str h]

/-- A set consists of the distinct members of a list, in some order. -/
theorem mem_members {w : Value} {items : List Value} : w ∈ members items ↔ w ∈ distinct items := by
  rw [members]
  by_cases hnumbers : (distinct items).all isNumber = true
  · rw [if_pos hnumbers]
    cases hsort : sort? (distinct items) with
    | none => exact Iff.rfl
    | some sorted => exact mem_of_sort?_eq_some hsort w
  · rw [if_neg hnumbers]

/-- A set of the members of a list has the texts that the list has. -/
theorem str_mem_members {s : String} {items : List Value} :
    .str s ∈ members items ↔ .str s ∈ items :=
  mem_members.trans str_mem_distinct

/-! ## Nothing but texts -/

/-- A piece of data is a text. -/
def IsText (v : Value) : Prop := ∃ s, v = .str s

/-- A text is the same key as a text only. -/
theorem keyEq_eq_false_of_isText {v w : Value} (hv : v.IsText) (hw : ¬ w.IsText) :
    keyEq v w = false := by
  obtain ⟨s, rfl⟩ := hv
  cases w with
  | str t => exact absurd ⟨t, rfl⟩ hw
  | null | bool _ | int _ | real _ | list _ | tuple _ | set _ | dict _ =>
    simp [keyEq, numberEq?, toInt?]

theorem forall_isText_distinct {items : List Value} :
    (∀ v ∈ distinct items, v.IsText) ↔ ∀ v ∈ items, v.IsText := by
  induction items with
  | nil => exact Iff.rfl
  | cons v vs ih =>
    rw [distinct, List.forall_mem_cons, List.forall_mem_cons]
    refine and_congr_right fun hv => ?_
    rw [← ih]
    -- what is left out is the same key as a text, so it is a text itself
    constructor
    · intro h w hw
      by_cases htext : w.IsText
      · exact htext
      · exact h w (List.mem_filter.2 ⟨hw, by simp [keyEq_eq_false_of_isText hv htext]⟩)
    · intro h w hw
      exact h w (List.mem_filter.1 hw).1

theorem forall_isText_members {items : List Value} :
    (∀ v ∈ members items, v.IsText) ↔ ∀ v ∈ items, v.IsText := by
  simp only [mem_members, forall_isText_distinct]

/-- Texts can be members of a set. -/
theorem hashableAll_of_isText {items : List Value} (h : ∀ v ∈ items, v.IsText) :
    hashableAll items = true := by
  induction items with
  | nil => rfl
  | cons v vs ih =>
    obtain ⟨⟨s, rfl⟩, hvs⟩ := List.forall_mem_cons.1 h
    rw [hashableAll, ih hvs]
    rfl

/-! ## Sorting -/

/-- What cannot be inserted has no order with some member. -/
theorem exists_unordered_of_insertSorted?_eq_none {v : Value} {ws : List Value}
    (h : insertSorted? v ws = none) : ∃ w ∈ ws, lt? w v = none := by
  induction ws with
  | nil => cases h
  | cons w ws ih =>
    rw [insertSorted?] at h
    cases hlt : lt? w v with
    | none => exact ⟨w, List.mem_cons_self, hlt⟩
    | some before =>
      rw [hlt] at h
      cases before with
      | true =>
        obtain ⟨u, hu, hlt⟩ := ih (Option.map_eq_none_iff.1 (Option.map_eq_bind.trans h))
        exact ⟨u, List.mem_cons_of_mem w hu, hlt⟩
      | false => cases h

/-- What stops a list from being sorted: a member that has no order with an earlier one. -/
theorem exists_unordered_of_sort?_eq_none {vs : List Value} (h : sort? vs = none) :
    ∃ v w, [v, w].Sublist vs ∧ lt? w v = none := by
  induction vs with
  | nil => cases h
  | cons v vs ih =>
    cases hsort : sort? vs with
    | none =>
      obtain ⟨u, w, hsub, hlt⟩ := ih hsort
      exact ⟨u, w, hsub.cons v, hlt⟩
    | some ws =>
      rw [sort?, hsort] at h
      obtain ⟨w, hw, hlt⟩ := exists_unordered_of_insertSorted?_eq_none h
      have hmem : w ∈ vs := (mem_of_sort?_eq_some hsort w).1 hw
      exact ⟨v, w, (List.singleton_sublist.2 hmem).cons_cons v, hlt⟩

/-- Texts have an order, so they can be sorted. -/
theorem exists_sort?_of_isText {items : List Value} (h : ∀ v ∈ items, v.IsText) :
    ∃ sorted, sort? items = some sorted := by
  rw [← Option.ne_none_iff_exists']
  intro hnone
  obtain ⟨v, w, hsub, hlt⟩ := exists_unordered_of_sort?_eq_none hnone
  obtain ⟨s, rfl⟩ := h v (hsub.subset List.mem_cons_self)
  obtain ⟨t, rfl⟩ := h w (hsub.subset (List.mem_cons_of_mem _ List.mem_cons_self))
  rw [lt?] at hlt
  contradiction

/-- The members of a list fall into two parts, and no member of either has an order with a member of
the other. -/
def Divided (vs : List Value) : Prop :=
  ∃ part : Value → Prop, (∃ v ∈ vs, part v) ∧ (∃ v ∈ vs, ¬ part v) ∧
    ∀ v ∈ vs, ∀ w ∈ vs, part v → ¬ part w → lt? v w = none ∧ lt? w v = none

/-- A member that has no order with any of those behind it cannot be put among them. -/
theorem sort?_cons_eq_none {v : Value} {vs : List Value} (hne : vs ≠ [])
    (h : ∀ w ∈ vs, lt? w v = none) : sort? (v :: vs) = none := by
  refine Option.eq_none_iff_forall_ne_some.2 fun sorted hsorted => ?_
  obtain ⟨ws, hws, hinsert⟩ := sort?_cons_eq_some_iff.1 hsorted
  have hmem : ∀ w, w ∈ ws ↔ w ∈ vs := mem_of_sort?_eq_some hws
  cases ws with
  | nil =>
    obtain ⟨w, hw⟩ := List.exists_mem_of_ne_nil vs hne
    exact absurd ((hmem w).2 hw) List.not_mem_nil
  | cons w ws =>
    have hlt : lt? w v = none := h w ((hmem w).1 List.mem_cons_self)
    rw [insertSorted?, hlt] at hinsert
    cases hinsert

/-- A list in two parts cannot be sorted, in whatever order its members stand: the last member of
one part with only the other part behind it has no order with any of that. -/
theorem sort?_eq_none_of_divided {vs : List Value} (h : Divided vs) : sort? vs = none := by
  obtain ⟨part, ⟨a, ha, hin⟩, ⟨b, hb, hout⟩, hunordered⟩ := h
  induction vs generalizing a b with
  | nil => cases ha
  | cons v vs ih =>
    have hrest : ∀ v ∈ vs, ∀ w ∈ vs, part v → ¬ part w → lt? v w = none ∧ lt? w v = none :=
      fun x hx y hy => hunordered x (List.mem_cons_of_mem v hx) y (List.mem_cons_of_mem v hy)
    -- either the rest is divided, or the first member stands alone against all of it
    by_cases hboth : (∃ x ∈ vs, part x) ∧ ∃ y ∈ vs, ¬ part y
    · obtain ⟨⟨x, hx, hxin⟩, y, hy, hyout⟩ := hboth
      rw [sort?, ih x hx hxin hrest y hy hyout]
      rfl
    · have hne : vs ≠ [] := by
        rintro rfl
        obtain rfl := List.mem_singleton.1 ha
        obtain rfl := List.mem_singleton.1 hb
        exact hout hin
      refine sort?_cons_eq_none hne fun w hw => ?_
      have hmem : w ∈ v :: vs := List.mem_cons_of_mem v hw
      by_cases hv : part v
      · obtain hbvs : b ∈ vs := (List.mem_cons.1 hb).resolve_left fun heq => hout (heq ▸ hv)
        have hwout : ¬ part w := fun hpart => hboth ⟨⟨w, hw, hpart⟩, b, hbvs, hout⟩
        exact (hunordered v List.mem_cons_self w hmem hv hwout).2
      · obtain havs : a ∈ vs := (List.mem_cons.1 ha).resolve_left fun heq => hv (heq ▸ hin)
        have hwin : part w :=
          Classical.byContradiction fun hpart => hboth ⟨⟨a, havs, hin⟩, w, hw, hpart⟩
        exact (hunordered w hmem v List.mem_cons_self hwin hv).1

end ModulePath.Value
