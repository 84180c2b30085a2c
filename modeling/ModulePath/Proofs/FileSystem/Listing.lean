import ModulePath.Proofs.FileSystem.Agreement
import ModulePath.Proofs.Path.Apart

/-!
# What a tree lists

The names in a listing are names of directories (`FileSystem.ListsDirectories`); it is so in every
tree as it is built (`Built.listsDirectories`). Their order is that in which directories were
registered. Two trees that hold the same and differ in that order alone (`Rearranged`) list the same
names and otherwise answer alike (`Rearranged.agreeOn`).
-/

set_option autoImplicit false

namespace ModulePath

/-- Every name that is listed for a path is that of a directory there. -/
def FileSystem.ListsDirectories (fs : FileSystem) : Prop :=
  ∀ p names, fs.subdirectories p = .ok names →
    ∀ name ∈ names, Path.IsComponent name ∧ fs.isDirectory (p.child name) = true

namespace Tree

variable {t t' : Tree}

/-! ## Trees as they are built -/

/-- The directories of a tree come from texts, so their components are read as themselves. -/
theorem Built.isComponent (h : t.Built) :
    ∀ d ∈ t.directories, ∀ part ∈ d.parts, Path.IsComponent part := by
  induction h with
  | empty =>
    intro d hd
    obtain rfl := List.mem_singleton.1 hd
    exact List.forall_mem_nil _
  | makeDirectory h s ih =>
    intro d hd
    rcases mem_directories_foldl_addDirectory.1 hd with hd | hd
    · exact ih d hd
    · exact forall_parts_of_mem_withParents (fun _ => Path.isComponent_of_mem_partsOf) hd
  | write h s text ih =>
    intro d hd
    -- a file brings the directories above it, which are parts of its path
    rw [directories_write] at hd
    rcases mem_directories_foldl_addDirectory.1 hd with hd | hd
    · exact ih d hd
    · exact forall_parts_of_mem_withParents (fun _ => Path.isComponent_of_mem_partsOf)
        (List.mem_of_mem_drop hd)
  | deny h p ih => exact ih
  | failAt h p reason ih => exact ih
  | allow h p ih => exact ih
  | remove h p ih => exact fun d hd => ih d (List.mem_filter.1 hd).1

/-- A tree that is built step by step lists what it contains. -/
theorem Built.listsDirectories (h : t.Built) : t.fileSystem.ListsDirectories := by
  intro p names hnames name hname
  obtain ⟨-, rfl⟩ := subdirectories_fileSystem_eq_ok.1 hnames
  obtain ⟨d, hd, ⟨hne, hparent⟩, rfl⟩ := mem_childNames_iff.1 hname
  obtain ⟨hanchor, hparts⟩ := eq_of_parent_eq hne hparent
  have hcomponent : Path.IsComponent d.name := by
    refine h.isComponent d hd d.name ?_
    rw [hparts]
    exact List.mem_append_right _ (List.mem_singleton_self _)
  -- the name leads back to the directory that it was taken from
  have hchild : p.child d.name = d := by
    rw [hcomponent.child_eq, ← hanchor, ← hparts]
  refine ⟨hcomponent, ?_⟩
  rw [hchild]
  exact isDirectory_fileSystem_iff.2 hd

/-! ## Orders of registration -/

/-- Two trees hold the same directories, registered in whatever order, and the same files, and use
of the same paths is denied or fails for the same reason. -/
structure Rearranged (t t' : Tree) : Prop where
  directories : t.directories.Perm t'.directories
  files : ∀ p, t.file? p = t'.file? p
  denied : ∀ p, p ∈ t.denied ↔ p ∈ t'.denied
  failing : ∀ p, (t.failing.find? fun e => e.1 = p).map (·.2) =
    (t'.failing.find? fun e => e.1 = p).map (·.2)

namespace Rearranged

variable (h : Rearranged t t')

include h

/-- A tree with its directories in another order holds the same. -/
theorem agreeWithin (root : Path) : AgreeWithin root t t' where
  directories := fun _ _ => h.directories.mem_iff
  files := fun p _ => h.files p
  denied := fun p _ => h.denied p
  failing := fun p _ => h.failing p

/-- A directory is listed with the same names, perhaps in another order. -/
theorem childNames_perm (p : Path) : (t.childNames p).Perm (t'.childNames p) :=
  (h.directories.filter _).map _

/-- Every path is within itself, so the trees agree about all of them. -/
theorem agreeOn (S : Path → Prop) : FileSystem.AgreeOn S t.fileSystem t'.fileSystem :=
  fun q p hq _ =>
    (h.agreeWithin p).agreeOn (fun r _ => h.childNames_perm r) q p hq (Path.isWithin_self p)

end Rearranged

end Tree

end ModulePath
