import ModulePath.Path.Basic
import ModulePath.Path.Valid
import ModulePath.Proofs.Text.Lines

/-!
# Paths inside a root

A root encloses the paths that go on after its own components and have no `..` there
(`Path.Encloses`). A text that is relative and has no `..` leads from an enclosed directory to an
enclosed path (`Encloses.child`); names and paths inside a root that are usable are such texts.
-/

set_option autoImplicit false

namespace ModulePath

namespace Path

variable {root p : Path} {s : String}

/-! ## Reading a path -/

/-- A path is relative if it does not begin with a separator. -/
theorem anchorOf_eq_relative_iff {cs : List Char} :
    anchorOf cs = .relative ↔ cs.head? ≠ some '/' := by
  unfold anchorOf
  split
  case h_4 hother =>
    refine iff_of_true rfl fun hhead => ?_
    obtain ⟨rest, rfl⟩ := List.head?_eq_some_iff.1 hhead
    exact hother rest rfl
  all_goals simp

theorem parent_mem_partsOf_iff {cs : List Char} :
    ".." ∈ partsOf cs ↔ ['.', '.'] ∈ Text.splitAt '/' cs := by
  simp only [partsOf, List.mem_map, List.mem_filter]
  constructor
  · rintro ⟨piece, ⟨hpiece, -⟩, hname⟩
    have hdots : piece = ['.', '.'] := by
      rw [← String.toList_ofList (l := piece), hname]
      rfl
    rwa [← hdots]
  · intro h
    exact ⟨_, ⟨h, by decide⟩, rfl⟩

/-- No component has a separator. -/
theorem separator_not_mem_of_mem_partsOf {cs : List Char} {part : String}
    (h : part ∈ partsOf cs) : '/' ∉ part.toList := by
  obtain ⟨piece, hpiece, rfl⟩ := List.mem_map.1 h
  rw [String.toList_ofList]
  exact Text.not_mem_of_mem_splitAt (List.mem_filter.1 hpiece).1

/-! ## Enclosed paths -/

/-- A path is a root or lies below it, and no component after those of the root is `..`. -/
def Encloses (root p : Path) : Prop :=
  root.isWithin p = true ∧ ".." ∉ p.parts.drop root.parts.length

instance (root p : Path) : Decidable (root.Encloses p) := inferInstanceAs (Decidable (_ ∧ _))

/-- A path lies within a root if its components begin with those of the root. -/
theorem isWithin_iff :
    root.isWithin p = true ↔ p.anchor = root.anchor ∧ ∃ more, p.parts = root.parts ++ more := by
  rw [isWithin, Bool.and_eq_true, beq_iff_eq, List.isPrefixOf_iff_prefix]
  refine and_congr_right fun _ => ?_
  exact exists_congr fun more => eq_comm

/-- A root encloses a path that goes on below it without a step up. -/
theorem encloses_iff : root.Encloses p ↔
    p.anchor = root.anchor ∧ ∃ more, p.parts = root.parts ++ more ∧ ".." ∉ more := by
  rw [Encloses, isWithin_iff]
  constructor
  · rintro ⟨⟨hanchor, more, hparts⟩, hmore⟩
    rw [hparts, List.drop_left] at hmore
    exact ⟨hanchor, more, hparts, hmore⟩
  · rintro ⟨hanchor, more, hparts, hmore⟩
    refine ⟨⟨hanchor, more, hparts⟩, ?_⟩
    rwa [hparts, List.drop_left]

theorem encloses_self (root : Path) : root.Encloses root :=
  encloses_iff.2 ⟨rfl, [], (List.append_nil _).symm, List.not_mem_nil⟩

/-! ## Texts that lead inside -/

/-- A text names a path that is relative and has no `..`. -/
structure LeadsInside (s : String) : Prop where
  relative : anchorOf s.toList = .relative
  noParent : ".." ∉ partsOf s.toList

/-- A relative text adds its components after those that are there. -/
theorem child_of_relative (hs : anchorOf s.toList = .relative) (p : Path) :
    p.child s = ⟨p.anchor, p.parts ++ partsOf s.toList⟩ := by
  simp [Path.child, join, isAbsolute, ofText, hs]

/-- What leads inside stays enclosed. -/
theorem Encloses.child (h : root.Encloses p) (hs : LeadsInside s) : root.Encloses (p.child s) := by
  obtain ⟨hanchor, more, hparts, hmore⟩ := encloses_iff.1 h
  rw [child_of_relative hs.relative, encloses_iff]
  refine ⟨hanchor, more ++ partsOf s.toList, ?_, ?_⟩
  · rw [hparts, List.append_assoc]
  · rw [List.mem_append, not_or]
    exact ⟨hmore, hs.noParent⟩

/-- A relative text does not lead out of the components that are there, whatever its own are. -/
theorem isWithin_child (h : root.isWithin p = true) (hs : anchorOf s.toList = .relative) :
    root.isWithin (p.child s) = true := by
  obtain ⟨hanchor, more, hparts⟩ := isWithin_iff.1 h
  rw [child_of_relative hs, isWithin_iff]
  exact ⟨hanchor, more ++ partsOf s.toList, by rw [hparts, List.append_assoc]⟩

/-- A child is within another one only if its components begin with those of the other. -/
theorem isWithin_child_eq_false {s' : String} (hs : anchorOf s.toList = .relative)
    (hs' : anchorOf s'.toList = .relative) (h : ¬ partsOf s.toList <+: partsOf s'.toList)
    (p : Path) : (p.child s).isWithin (p.child s') = false := by
  rw [child_of_relative hs, child_of_relative hs', Bool.eq_false_iff]
  intro hwithin
  rw [isWithin, Bool.and_eq_true, List.isPrefixOf_iff_prefix, List.prefix_append_right_inj]
    at hwithin
  exact h hwithin.2

theorem isWithin_self (p : Path) : p.isWithin p = true :=
  isWithin_iff.2 ⟨rfl, [], (List.append_nil _).symm⟩

theorem isWithin_trans {q r : Path} (h : p.isWithin q = true) (h' : q.isWithin r = true) :
    p.isWithin r = true := by
  obtain ⟨hanchor, more, hparts⟩ := isWithin_iff.1 h
  obtain ⟨hanchor', more', hparts'⟩ := isWithin_iff.1 h'
  refine isWithin_iff.2 ⟨hanchor'.trans hanchor, more ++ more', ?_⟩
  rw [hparts', hparts, List.append_assoc]

/-- A single component is relative. -/
theorem relative_of_component (hseparator : '/' ∉ s.toList) : anchorOf s.toList = .relative := by
  refine anchorOf_eq_relative_iff.2 fun hhead => hseparator ?_
  exact List.mem_of_mem_head? hhead

/-- A single component leads inside, unless it is `..`. -/
theorem leadsInside_of_component (hseparator : '/' ∉ s.toList) (hparent : s ≠ "..") :
    LeadsInside s := by
  refine ⟨relative_of_component hseparator, ?_⟩
  rw [parent_mem_partsOf_iff, Text.splitAt_of_not_mem hseparator, List.mem_singleton]
  intro hdots
  refine hparent (String.toList_inj.1 ?_)
  rw [← hdots]
  rfl

theorem separator_not_mem_of_nameFault? (h : nameFault? s = none) : '/' ∉ s.toList := by
  intro hmem
  have hany : (s.toList.any fun c => c == '/' || c == '\\' || c == '\x00') = true :=
    List.any_eq_true.2 ⟨'/', hmem, by decide⟩
  -- whichever test is the first to succeed, there is one
  unfold nameFault? at h
  rw [hany, if_pos rfl] at h
  repeat' split at h
  all_goals cases h

/-- A name without a fault leads inside. -/
theorem leadsInside_of_nameFault? (h : nameFault? s = none) : LeadsInside s := by
  have hparent : s ≠ ".." := by
    rintro rfl
    exact absurd h (by decide)
  exact leadsInside_of_component (separator_not_mem_of_nameFault? h) hparent

/-- A relative path without a fault leads inside. -/
theorem leadsInside_of_relativePathFault? (h : relativePathFault? s = none) : LeadsInside s := by
  unfold relativePathFault? at h
  cases hrule : rulePathFault? s with
  | some f => simp [hrule] at h
  | none =>
    simp only [hrule] at h
    split at h
    case isTrue => cases h
    case isFalse hhead =>
    split at h
    case isTrue => cases h
    case isFalse htraversal =>
    constructor
    · exact anchorOf_eq_relative_iff.2 (by simpa using hhead)
    · rw [parent_mem_partsOf_iff, ← List.contains_iff_mem]
      exact htraversal

end Path

end ModulePath
