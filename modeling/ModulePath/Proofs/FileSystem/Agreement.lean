import Mathlib.Data.List.Induction
import Mathlib.Data.List.Nodup
import ModulePath.Proofs.FileSystem.Tree
import ModulePath.Proofs.Path.Inside
import ModulePath.Proofs.Program.Confined

/-!
# Trees that agree below a root

Two trees agree within a root if they hold the same there, in whatever order (`Tree.AgreeWithin`).
As file systems they then answer alike about every path that the root encloses, if they are built
as trees are (`WellFormed`, `Built.wellFormed`).
-/

set_option autoImplicit false

namespace ModulePath.Tree

/-! ## Trees as they are built -/

/-- No directory is registered twice, and no component of one holds a separator. -/
structure WellFormed (t : Tree) : Prop where
  nodup : t.directories.Nodup
  components : ∀ d ∈ t.directories, ∀ part ∈ d.parts, '/' ∉ part.toList

/-- A tree that comes from the empty one step by step. -/
inductive Built : Tree → Prop
  | empty : Built {}
  | makeDirectory {t : Tree} (h : Built t) (s : String) : Built (t.makeDirectory (.ofText s))
  | write {t : Tree} (h : Built t) (s text : String) : Built (t.write (.ofText s) text)
  | deny {t : Tree} (h : Built t) (p : Path) : Built (t.deny p)
  | failAt {t : Tree} (h : Built t) (p : Path) (reason : String) : Built (t.failAt p reason)
  | allow {t : Tree} (h : Built t) (p : Path) : Built (t.allow p)
  | remove {t : Tree} (h : Built t) (p : Path) : Built (t.remove p)

section Building

variable {t : Tree}

theorem WellFormed.addDirectory {p : Path} (h : t.WellFormed)
    (hp : ∀ part ∈ p.parts, '/' ∉ part.toList) : (t.addDirectory p).WellFormed := by
  unfold Tree.addDirectory
  split
  case isTrue => exact h
  case isFalse hnew =>
    have hfresh : p ∉ t.directories := mt List.contains_iff_mem.2 hnew
    refine ⟨?_, fun d hd => ?_⟩
    · refine h.nodup.append (List.nodup_singleton p) ?_
      intro d hd hdp
      obtain rfl := List.mem_singleton.1 hdp
      exact hfresh hd
    · rcases List.mem_append.1 hd with hd | hd
      · exact h.components d hd
      · obtain rfl := List.mem_singleton.1 hd
        exact hp

/-- Directories with proper names may be added one after the other. -/
theorem WellFormed.foldl_addDirectory {ps : List Path} (h : t.WellFormed)
    (hps : ∀ p ∈ ps, ∀ part ∈ p.parts, '/' ∉ part.toList) :
    (ps.foldl Tree.addDirectory t).WellFormed := by
  induction ps generalizing t with
  | nil => exact h
  | cons p ps ih =>
    obtain ⟨hp, hrest⟩ := List.forall_mem_cons.1 hps
    exact ih (h.addDirectory hp) hrest

/-- The directories above a path have no other components than it has. -/
theorem forall_parts_of_mem_withParents {P : String → Prop} {p q : Path}
    (hp : ∀ part ∈ p.parts, P part) (hq : q ∈ p.withParents) : ∀ part ∈ q.parts, P part := by
  intro part hpart
  obtain ⟨k, -, rfl⟩ := List.mem_map.1 hq
  exact hp part (List.mem_of_mem_take hpart)

/-- A file is written with the directories above it. -/
theorem directories_write (p : Path) (text : String) : (t.write p text).directories =
    ((p.withParents.drop 1).foldl Tree.addDirectory t).directories := rfl

theorem WellFormed.of_directories_eq {t' : Tree} (h : t.WellFormed)
    (heq : t'.directories = t.directories) : t'.WellFormed :=
  ⟨heq ▸ h.nodup, heq ▸ h.components⟩

theorem WellFormed.write {p : Path} (h : t.WellFormed) (hp : ∀ part ∈ p.parts, '/' ∉ part.toList)
    (text : String) : (t.write p text).WellFormed := by
  have hparents : ((p.withParents.drop 1).foldl Tree.addDirectory t).WellFormed :=
    h.foldl_addDirectory fun q hq =>
      forall_parts_of_mem_withParents hp (List.mem_of_mem_drop hq)
  exact hparents.of_directories_eq (directories_write _ _)

/-- A tree that is built step by step is well-formed. -/
theorem Built.wellFormed (h : t.Built) : t.WellFormed := by
  induction h with
  | empty =>
    refine ⟨List.nodup_singleton _, fun d hd => ?_⟩
    obtain rfl := List.mem_singleton.1 hd
    exact List.forall_mem_nil _
  | makeDirectory h s ih =>
    exact ih.foldl_addDirectory fun p hp =>
      forall_parts_of_mem_withParents (fun _ => Path.separator_not_mem_of_mem_partsOf) hp
  | write h s text ih => exact ih.write (fun _ => Path.separator_not_mem_of_mem_partsOf) text
  | deny h p ih => exact ih.of_directories_eq rfl
  | failAt h p reason ih => exact ih.of_directories_eq rfl
  | allow h p ih => exact ih.of_directories_eq rfl
  | remove h p ih =>
    exact ⟨ih.nodup.filter _, fun d hd => ih.components d (List.mem_filter.1 hd).1⟩

end Building

/-! ## Below a root -/

/-- No directory below a root has a component `..` there. -/
def NoStepsOut (t : Tree) (root : Path) : Prop :=
  ∀ d ∈ t.directories, root.isWithin d = true → root.Encloses d

/-- Two trees hold the same at a root and everywhere below it. -/
structure AgreeWithin (root : Path) (t t' : Tree) : Prop where
  directories : ∀ p, root.isWithin p = true → (p ∈ t.directories ↔ p ∈ t'.directories)
  files : ∀ p, root.isWithin p = true → t.file? p = t'.file? p
  denied : ∀ p, root.isWithin p = true → (p ∈ t.denied ↔ p ∈ t'.denied)
  failing : ∀ p, root.isWithin p = true →
    (t.failing.find? fun e => e.1 = p).map (·.2) = (t'.failing.find? fun e => e.1 = p).map (·.2)

variable {t t' : Tree} {root p : Path}

/-- A directory right below a path is the path with a name. -/
theorem eq_of_parent_eq {d : Path} (hne : d ≠ p) (hparent : d.parent = p) :
    d.anchor = p.anchor ∧ d.parts = p.parts ++ [d.name] := by
  obtain ⟨anchor, parts⟩ := d
  subst hparent
  cases parts using List.reverseRecOn with
  | nil => exact absurd rfl hne
  | append_singleton parts last => simp [Path.parent, Path.name]

/-- The names in a directory are those of the directories right below it. -/
theorem mem_childNames_iff {name : String} : name ∈ t.childNames p ↔
    ∃ d ∈ t.directories, (d ≠ p ∧ d.parent = p) ∧ d.name = name := by
  simp [childNames, and_assoc]

/-- No name in a directory has a separator. -/
theorem separator_not_mem_of_mem_childNames (hwf : t.WellFormed) {name : String}
    (h : name ∈ t.childNames p) : '/' ∉ name.toList := by
  obtain ⟨d, hd, ⟨hne, hparent⟩, rfl⟩ := mem_childNames_iff.1 h
  obtain ⟨-, hparts⟩ := eq_of_parent_eq hne hparent
  refine hwf.components d hd _ ?_
  rw [hparts]
  exact List.mem_append_right _ (List.mem_singleton_self _)

/-- No name is listed twice. -/
theorem nodup_childNames (hwf : t.WellFormed) (p : Path) : (t.childNames p).Nodup := by
  unfold childNames
  refine List.Nodup.map_on (fun d hd d' hd' hname => ?_) (hwf.nodup.filter _)
  simp only [List.mem_filter, Bool.and_eq_true, decide_eq_true_eq] at hd hd'
  obtain ⟨hanchor, hparts⟩ := eq_of_parent_eq hd.2.1 hd.2.2
  obtain ⟨hanchor', hparts'⟩ := eq_of_parent_eq hd'.2.1 hd'.2.2
  -- two directories right below a path are told apart by their names
  have hsame : d.parts = d'.parts := by rw [hparts, hparts', hname]
  obtain ⟨anchor, parts⟩ := d
  obtain ⟨anchor', parts'⟩ := d'
  exact congrArg₂ Path.mk (hanchor.trans hanchor'.symm) hsame

/-- The names that are listed are single components, whatever directory they are in. -/
theorem lists_relative (hwf : t.WellFormed) (S : Path → Prop) :
    t.fileSystem.Lists S fun name => Path.anchorOf name.toList = .relative := by
  intro q p hq hp
  cases q with
  | listing dir =>
    intro names hnames name hname
    obtain ⟨-, rfl⟩ := subdirectories_fileSystem_eq_ok.1 hnames
    exact Path.relative_of_component (separator_not_mem_of_mem_childNames hwf hname)
  | presence _ | kind _ | access _ | content _ | home _ | openLog _ _ => trivial

/-- The names that are listed below a root are names of directories there. -/
theorem lists_fileSystem (hwf : t.WellFormed) (hno : t.NoStepsOut root) :
    t.fileSystem.Lists root.Encloses Path.LeadsInside := by
  intro q p hq hp
  cases q with
  | listing dir =>
    obtain rfl := Option.some.inj hq
    intro names hnames name hname
    obtain ⟨-, rfl⟩ := subdirectories_fileSystem_eq_ok.1 hnames
    have hseparator := separator_not_mem_of_mem_childNames hwf hname
    obtain ⟨d, hd, ⟨hne, hparent⟩, rfl⟩ := mem_childNames_iff.1 hname
    obtain ⟨hanchor, hparts⟩ := eq_of_parent_eq hne hparent
    obtain ⟨hroot, more, hmore, -⟩ := Path.encloses_iff.1 hp
    have hwithin : root.isWithin d = true := by
      refine Path.isWithin_iff.2 ⟨hanchor.trans hroot, more ++ [d.name], ?_⟩
      rw [hparts, hmore, List.append_assoc]
    refine Path.leadsInside_of_component hseparator fun hdots => ?_
    -- the name stands after the components of the root
    have hparent : ".." ∉ d.parts.drop root.parts.length := (hno d hd hwithin).2
    rw [hparts, hmore, List.append_assoc, List.drop_left, hdots] at hparent
    exact hparent (List.mem_append_right _ (List.mem_singleton_self _))
  | presence _ | kind _ | access _ | content _ | home _ | openLog _ _ => trivial

/-! ## Answers of trees that agree -/

namespace AgreeWithin

variable (h : AgreeWithin root t t') (hp : root.isWithin p = true)

include h hp

theorem contains_eq : t.directories.contains p = t'.directories.contains p := by
  rw [Bool.eq_iff_iff, List.contains_iff_mem, List.contains_iff_mem]
  exact h.directories p hp

theorem denied_eq : t.denied.contains p = t'.denied.contains p := by
  rw [Bool.eq_iff_iff, List.contains_iff_mem, List.contains_iff_mem]
  exact h.denied p hp

theorem hasPath_eq : t.hasPath p = t'.hasPath p := by
  rw [hasPath, hasPath, h.contains_eq hp, h.files p hp]

/-- Both trees fail alike at a path within the root. -/
theorem failure?_eq : t.failure? p = t'.failure? p := by
  rw [failure?, failure?, h.denied_eq hp, h.failing p hp]

/-- Both trees list the same names within the root, perhaps in another order. -/
theorem childNames_perm (hwf : t.WellFormed) (hwf' : t'.WellFormed) :
    (t.childNames p).Perm (t'.childNames p) := by
  unfold childNames
  refine List.Perm.map _ ?_
  refine (List.perm_ext_iff_of_nodup (hwf.nodup.filter _) (hwf'.nodup.filter _)).2 fun d => ?_
  rw [List.mem_filter, List.mem_filter]
  refine and_congr_left fun hchild => ?_
  -- a directory right below the path is within the root, where the trees agree
  rw [Bool.and_eq_true, decide_eq_true_eq, decide_eq_true_eq] at hchild
  obtain ⟨hanchor, hparts⟩ := eq_of_parent_eq hchild.1 hchild.2
  obtain ⟨hroot, more, hmore⟩ := Path.isWithin_iff.1 hp
  refine h.directories d (Path.isWithin_iff.2 ⟨hanchor.trans hroot, more ++ [d.name], ?_⟩)
  rw [hparts, hmore, List.append_assoc]

end AgreeWithin

/-- Trees that agree answer alike if they list the same names. -/
theorem AgreeWithin.agreeOn (h : AgreeWithin root t t')
    (hnames : ∀ p, root.isWithin p = true → (t.childNames p).Perm (t'.childNames p)) :
    FileSystem.AgreeOn (root.isWithin · = true) t.fileSystem t'.fileSystem := by
  intro q p hq hwithin
  cases q with
  | presence path =>
    obtain rfl := Option.some.inj hq
    exact congrArg Except.ok (h.hasPath_eq hwithin)
  | kind path =>
    obtain rfl := Option.some.inj hq
    exact h.contains_eq hwithin
  | access path =>
    obtain rfl := Option.some.inj hq
    exact congrArg₂ (fun a b => a && !b) (h.hasPath_eq hwithin) (h.denied_eq hwithin)
  | listing path =>
    obtain rfl := Option.some.inj hq
    have hperm := hnames path hwithin
    simp only [Query.Alike, FileSystem.answer, fileSystem, h.failure?_eq hwithin]
    -- names may come in another order, but a failure is the same
    cases t'.failure? path with
    | some reason => exact .inl rfl
    | none => exact .inr ⟨_, _, rfl, rfl, hperm⟩
  | content path =>
    obtain rfl := Option.some.inj hq
    simp only [Query.Alike, FileSystem.answer, fileSystem, h.failure?_eq hwithin,
      h.files path hwithin]
  | home _ | openLog _ _ => cases hq

/-- Trees that hold the same within a root answer alike within it. -/
theorem agreeOn_isWithin (hwf : t.WellFormed) (hwf' : t'.WellFormed) (h : AgreeWithin root t t') :
    FileSystem.AgreeOn (root.isWithin · = true) t.fileSystem t'.fileSystem :=
  h.agreeOn fun _ hp => h.childNames_perm hp hwf hwf'

theorem agreeOn_fileSystem (hwf : t.WellFormed) (hwf' : t'.WellFormed)
    (h : AgreeWithin root t t') : FileSystem.AgreeOn root.Encloses t.fileSystem t'.fileSystem :=
  fun q p hq hp => agreeOn_isWithin hwf hwf' h q p hq hp.1

/-! ## Writing a file -/

theorem mem_directories_addDirectory {d : Path} :
    d ∈ (t.addDirectory p).directories ↔ d ∈ t.directories ∨ d = p := by
  unfold addDirectory
  split
  case isTrue hmem =>
    refine ⟨.inl, ?_⟩
    rintro (hd | rfl)
    · exact hd
    · exact List.contains_iff_mem.1 hmem
  case isFalse => rw [List.mem_append, List.mem_singleton]

/-- Adding directories adds these and no others. -/
theorem mem_directories_foldl_addDirectory {d : Path} {ps : List Path} :
    d ∈ (ps.foldl addDirectory t).directories ↔ d ∈ t.directories ∨ d ∈ ps := by
  induction ps generalizing t with
  | nil => simp
  | cons p ps ih => rw [List.foldl_cons, ih, mem_directories_addDirectory, List.mem_cons, or_assoc]

theorem find?_assign_of_ne {files : List (Path × String)} {q : Path} {text : String} (h : p ≠ q) :
    ((assign p text files).find? fun e => e.1 = q) = files.find? fun e => e.1 = q := by
  induction files with
  | nil => rw [assign, List.find?_cons_of_neg (by simpa using h)]
  | cons e files ih =>
    rw [assign]
    split
    case isTrue he =>
      -- the file that is written over has another path too
      have hne : e.1 ≠ q := fun heq => h (he.symm.trans heq)
      rw [List.find?_cons_of_neg (by simpa using h), List.find?_cons_of_neg (by simpa using hne)]
    case isFalse => rw [List.find?_cons, List.find?_cons, ih]

theorem find?_assign_self {files : List (Path × String)} {text : String} :
    ((assign p text files).find? fun e => e.1 = p) = some (p, text) := by
  induction files with
  | nil => rw [assign, List.find?_cons_of_pos (by simp)]
  | cons e files ih =>
    rw [assign]
    split
    case isTrue => rw [List.find?_cons_of_pos (by simp)]
    case isFalse he => rw [List.find?_cons_of_neg (by simpa using he), ih]

/-- Registering directories changes nothing else. -/
theorem files_foldl_addDirectory (ps : List Path) (t : Tree) :
    (ps.foldl addDirectory t).files = t.files ∧ (ps.foldl addDirectory t).denied = t.denied ∧
      (ps.foldl addDirectory t).failing = t.failing := by
  induction ps generalizing t with
  | nil => exact ⟨rfl, rfl, rfl⟩
  | cons p ps ih =>
    obtain ⟨hfiles, hdenied, hfailing⟩ := ih (t.addDirectory p)
    have hfirst : (t.addDirectory p).files = t.files ∧ (t.addDirectory p).denied = t.denied ∧
        (t.addDirectory p).failing = t.failing := by
      unfold addDirectory
      split
      · exact ⟨rfl, rfl, rfl⟩
      · exact ⟨rfl, rfl, rfl⟩
    exact ⟨hfiles.trans hfirst.1, hdenied.trans hfirst.2.1, hfailing.trans hfirst.2.2⟩

theorem file?_write_self (t : Tree) (p : Path) (text : String) :
    (t.write p text).file? p = some text := by
  rw [file?, write, find?_assign_self, Option.map_some]

/-- Writing a file makes no path fail. -/
theorem failure?_write (t : Tree) (p q : Path) (text : String) :
    (t.write p text).failure? q = t.failure? q := by
  obtain ⟨-, hdenied, hfailing⟩ := files_foldl_addDirectory (p.withParents.drop 1) t
  simp only [failure?, write, hdenied, hfailing]

/-- A directory above a path that is within another one makes the path be within it. -/
theorem isWithin_of_mem_withParents {q : Path} (hq : q ∈ p.withParents)
    (h : root.isWithin q = true) : root.isWithin p = true := by
  obtain ⟨k, -, rfl⟩ := List.mem_map.1 hq
  obtain ⟨hanchor, more, hparts⟩ := Path.isWithin_iff.1 h
  refine Path.isWithin_iff.2 ⟨hanchor, more ++ p.parts.drop (p.parts.length - k), ?_⟩
  rw [← List.append_assoc, ← hparts, List.take_append_drop]

/-- Writing a file changes nothing within a directory that the file is not within: neither are any
of the directories above it. -/
theorem agreeWithin_write {text : String} (h : root.isWithin p = false) :
    AgreeWithin root t (t.write p text) := by
  obtain ⟨hfiles, hdenied, hfailing⟩ := files_foldl_addDirectory (p.withParents.drop 1) t
  refine ⟨fun q hq => ?_, fun q hq => ?_, fun q hq => ?_, fun q hq => ?_⟩
  · rw [directories_write, mem_directories_foldl_addDirectory]
    refine ⟨.inl, ?_⟩
    rintro (hmem | hparent)
    · exact hmem
    · have hwithin := isWithin_of_mem_withParents (List.mem_of_mem_drop hparent) hq
      rw [h] at hwithin
      contradiction
  · have hne : p ≠ q := by
      rintro rfl
      rw [h] at hq
      contradiction
    rw [file?, file?, write, find?_assign_of_ne hne, hfiles]
  · rw [write, hdenied]
  · rw [write, hfailing]

end ModulePath.Tree
