import ModulePath.FileSystem.Tree
import ModulePath.Proofs.Program.Outcome

/-!
# What a tree answers

The answers of a tree as a file system, in terms of what the tree holds.
-/

set_option autoImplicit false

namespace ModulePath.Tree

variable {t : Tree} {p : Path}

@[simp] theorem contains_fileSystem : t.fileSystem.contains p = t.hasPath p := rfl

/-- The directories of a tree are those that the file system says. -/
theorem isDirectory_fileSystem_iff : t.fileSystem.isDirectory p = true ↔ p ∈ t.directories :=
  List.contains_iff_mem

theorem isDirectory_fileSystem_eq_false_iff :
    t.fileSystem.isDirectory p = false ↔ p ∉ t.directories := by
  rw [← isDirectory_fileSystem_iff, Bool.not_eq_true]

/-- A directory whose use does not fail lists the directories right below it. -/
theorem subdirectories_fileSystem_eq_ok {names : List String} :
    t.fileSystem.subdirectories p = .ok names ↔ t.failure? p = none ∧ names = t.childNames p := by
  cases hfailure : t.failure? p with
  | some reason => simp [fileSystem, hfailure]
  | none => simp [fileSystem, hfailure, eq_comm]

/-- A file whose use does not fail is read as it was written. -/
theorem hasText_fileSystem_iff {s : String} :
    t.fileSystem.HasText p s ↔ t.failure? p = none ∧ t.file? p = some s := by
  unfold FileSystem.HasText
  cases hfailure : t.failure? p with
  | some reason => simp [fileSystem, hfailure]
  | none =>
    cases hfile : t.file? p with
    | none => simp [fileSystem, hfailure, hfile]
    | some content => simp [fileSystem, hfailure, hfile, Content.text?]

/-- A text that is read is that of a file. -/
theorem mem_files_of_hasText {s : String} (h : t.fileSystem.HasText p s) : (p, s) ∈ t.files := by
  obtain ⟨-, hfile⟩ := hasText_fileSystem_iff.1 h
  obtain ⟨⟨q, _⟩, hfind, rfl⟩ := Option.map_eq_some_iff.1 hfile
  obtain rfl : q = p := by simpa using List.find?_some hfind
  exact List.mem_of_find?_eq_some hfind

end ModulePath.Tree
