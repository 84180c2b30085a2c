import ModulePath.Proofs.Path.Inside

/-!
# Paths that lie apart

A component is a name that is read as itself (`Path.IsComponent`): the components of a path that is
read are such names, and so are the usable names of layers, overlays and add-ons. Two paths lie
apart if neither is within the other, and then nothing is within both of them
(`Apart.not_within_both`). Entries of one directory with different names lie apart (`apart_child`).
-/

set_option autoImplicit false

namespace ModulePath.Path

variable {p q r : Path} {name name' : String}

/-! ## Components -/

/-- A name that is read as a single component, which is the name itself. -/
def IsComponent (name : String) : Prop := partsOf name.toList = [name]

/-- A name without a separator that is neither empty nor a dot is one component. -/
theorem isComponent_of_separator_not_mem (hseparator : '/' ∉ name.toList) (hempty : name ≠ "")
    (hhere : name ≠ ".") : IsComponent name := by
  have hchars : name.toList ≠ ['.'] := fun h => hhere (String.toList_inj.1 h)
  rw [IsComponent, partsOf, Text.splitAt_of_not_mem hseparator,
    List.filter_cons_of_pos (by simp [hempty, hchars])]
  simp

/-- What a path is read into is not taken apart again. -/
theorem isComponent_of_mem_partsOf {cs : List Char} {part : String} (h : part ∈ partsOf cs) :
    IsComponent part := by
  have hseparator : '/' ∉ part.toList := separator_not_mem_of_mem_partsOf h
  obtain ⟨piece, hpiece, rfl⟩ := List.mem_map.1 h
  obtain ⟨hnonempty, hnothere⟩ := Bool.and_eq_true_iff.1 (List.mem_filter.1 hpiece).2
  refine isComponent_of_separator_not_mem hseparator (fun hempty => ?_) (fun hhere => ?_)
  · have hpiece : piece = [] := by simpa using congrArg String.toList hempty
    simp [hpiece] at hnonempty
  · have hpiece : piece = ['.'] := by simpa using congrArg String.toList hhere
    simp [hpiece] at hnothere

/-- A name without a fault is one component. -/
theorem isComponent_of_nameFault? (h : nameFault? name = none) : IsComponent name := by
  refine isComponent_of_separator_not_mem (separator_not_mem_of_nameFault? h) ?_ ?_
  · rintro rfl
    exact absurd h (by decide)
  · rintro rfl
    exact absurd h (by decide)

theorem IsComponent.separator_not_mem (h : IsComponent name) : '/' ∉ name.toList := by
  have hmem : name ∈ partsOf name.toList := by
    rw [h]
    exact List.mem_singleton_self name
  exact separator_not_mem_of_mem_partsOf hmem

theorem IsComponent.relative (h : IsComponent name) : anchorOf name.toList = .relative :=
  relative_of_component h.separator_not_mem

/-- The entry of a directory has one component more. -/
theorem IsComponent.child_eq (h : IsComponent name) (p : Path) :
    p.child name = ⟨p.anchor, p.parts ++ [name]⟩ := by
  rw [child_of_relative h.relative, h]

/-- An entry tells its directory and its name. -/
theorem IsComponent.child_inj (h : IsComponent name) (h' : IsComponent name')
    (heq : p.child name = q.child name') : p = q ∧ name = name' := by
  rw [h.child_eq, h'.child_eq, Path.mk.injEq] at heq
  obtain ⟨hanchor, hparts⟩ := heq
  obtain ⟨hdir, hname⟩ := List.append_inj' hparts rfl
  exact ⟨by rw [Path.mk.injEq]; exact ⟨hanchor, hdir⟩, List.singleton_inj.1 hname⟩

/-- What is right below a path is within whatever the path is within. -/
theorem IsComponent.isWithin_child (h : IsComponent name) (hp : q.isWithin p = true) :
    q.isWithin (p.child name) = true :=
  Path.isWithin_child hp h.relative

/-- Nothing that is within an entry of a directory is the directory. -/
theorem IsComponent.ne_of_isWithin (h : IsComponent name)
    (hq : (p.child name).isWithin q = true) : q ≠ p := by
  rintro rfl
  rw [h.child_eq] at hq
  obtain ⟨-, more, hparts⟩ := isWithin_iff.1 hq
  simpa using congrArg List.length hparts

/-! ## Paths apart -/

/-- Neither of two paths is within the other. -/
def Apart (p q : Path) : Prop := p.isWithin q = false ∧ q.isWithin p = false

theorem Apart.ne (h : Apart p q) : p ≠ q := by
  rintro rfl
  exact Bool.false_ne_true (h.1.symm.trans (isWithin_self p))

/-- Of two paths that a third one is within, one is within the other. -/
theorem within_or_within (hp : p.isWithin r = true) (hq : q.isWithin r = true) :
    p.isWithin q = true ∨ q.isWithin p = true := by
  obtain ⟨hpanchor, pmore, hpparts⟩ := isWithin_iff.1 hp
  obtain ⟨hqanchor, qmore, hqparts⟩ := isWithin_iff.1 hq
  have hanchor : p.anchor = q.anchor := hpanchor.symm.trans hqanchor
  have hpbegins : p.parts <+: r.parts := ⟨pmore, hpparts.symm⟩
  have hqbegins : q.parts <+: r.parts := ⟨qmore, hqparts.symm⟩
  rcases List.prefix_or_prefix_of_prefix hpbegins hqbegins with ⟨more, h⟩ | ⟨more, h⟩
  · exact .inl (isWithin_iff.2 ⟨hanchor.symm, more, h.symm⟩)
  · exact .inr (isWithin_iff.2 ⟨hanchor, more, h.symm⟩)

/-- Nothing lies within two paths that lie apart. -/
theorem Apart.not_within_both (h : Apart p q) (hp : p.isWithin r = true) :
    ¬ q.isWithin r = true := by
  intro hq
  rcases within_or_within hp hq with hpq | hqp
  · rw [h.1] at hpq
    cases hpq
  · rw [h.2] at hqp
    cases hqp

/-- Entries of a directory that are read differently lie apart. -/
theorem apart_child (h : IsComponent name) (h' : IsComponent name') (hne : name ≠ name')
    (p : Path) : Apart (p.child name) (p.child name') := by
  have hparts (s s' : String) (hs : IsComponent s) (hs' : IsComponent s') (hsne : s ≠ s') :
      (p.child s).isWithin (p.child s') = false := by
    refine isWithin_child_eq_false hs.relative hs'.relative (fun hbegins => hsne ?_) p
    rw [hs, hs'] at hbegins
    simpa using hbegins
  exact ⟨hparts name name' h h' hne, hparts name' name h' h (Ne.symm hne)⟩

/-- Different names right below a path lie apart. -/
theorem pairwise_apart_child {names : List String} (hnodup : names.Nodup)
    (hnames : ∀ name ∈ names, IsComponent name) (p : Path) :
    (names.map p.child).Pairwise Apart := by
  rw [List.pairwise_map]
  exact hnodup.imp_of_mem fun hname hname' hne =>
    apart_child (hnames _ hname) (hnames _ hname') hne p

end ModulePath.Path
