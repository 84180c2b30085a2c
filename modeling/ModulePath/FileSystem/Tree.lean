import ModulePath.FileSystem.Basic

/-!
# Trees in memory

A file system that is a list of directories in order of registration, the texts of files, and which
paths are denied or fail. Paths are looked up as they are written: `..` is a component like any
other. A path can be a directory and a file.
-/

set_option autoImplicit false

namespace ModulePath

/-- A tree. -/
structure Tree where
  directories : List Path := [⟨.root, []⟩]
  files : List (Path × String) := []
  denied : List Path := []
  /-- The paths whose use fails, with the reason. -/
  failing : List (Path × String) := []

namespace Tree

/-! ## Building -/

/-- Give a path a text, in place of the one it has. -/
def assign (p : Path) (s : String) : List (Path × String) → List (Path × String)
  | [] => [(p, s)]
  | e :: rest => if e.1 = p then (p, s) :: rest else e :: assign p s rest

/-- Register a directory. -/
def addDirectory (t : Tree) (p : Path) : Tree :=
  if t.directories.contains p then t else { t with directories := t.directories ++ [p] }

/-- Register a directory and after it those above it. -/
def makeDirectory (t : Tree) (p : Path) : Tree := p.withParents.foldl addDirectory t

/-- Write a file, registering the directories above it. -/
def write (t : Tree) (p : Path) (s : String) : Tree :=
  let t := (p.withParents.drop 1).foldl addDirectory t
  { t with files := assign p s t.files }

/-- Deny access to a path. -/
def deny (t : Tree) (p : Path) : Tree := { t with denied := p :: t.denied }

/-- Let a path fail for a reason. -/
def failAt (t : Tree) (p : Path) (reason : String) : Tree :=
  { t with failing := assign p reason t.failing }

/-- Let a path be used again. -/
def allow (t : Tree) (p : Path) : Tree :=
  { t with
    denied := t.denied.filter (· ≠ p)
    failing := t.failing.filter (·.1 ≠ p) }

/-- Remove a path and everything below it. -/
def remove (t : Tree) (p : Path) : Tree :=
  { t with
    directories := t.directories.filter fun q => !p.isWithin q
    files := t.files.filter fun e => !p.isWithin e.1 }

/-! ## Answers -/

/-- The text of the file at a path. -/
def file? (t : Tree) (p : Path) : Option String :=
  (t.files.find? fun e => e.1 = p).map (·.2)

/-- Why a path cannot be used. -/
def failure? (t : Tree) (p : Path) : Option String :=
  if t.denied.contains p then some "Permission denied"
  else (t.failing.find? fun e => e.1 = p).map (·.2)

/-- The names of the directories right below a path, in order of registration. A path without
components is its own parent, but not below itself. -/
def childNames (t : Tree) (p : Path) : List String :=
  (t.directories.filter fun d => d ≠ p && d.parent = p).map Path.name

/-- Whether there is a directory or a file at a path. -/
def hasPath (t : Tree) (p : Path) : Bool := t.directories.contains p || (t.file? p).isSome

/-- A tree as a file system. -/
def fileSystem (t : Tree) : FileSystem where
  presence p := .ok (t.hasPath p)
  isDirectory := t.directories.contains
  isReadable p := t.hasPath p && !t.denied.contains p
  subdirectories p :=
    match t.failure? p with
    | some reason => .error reason
    | none => .ok (t.childNames p)
  content p :=
    match t.failure? p with
    | some reason => .error reason
    | none =>
      match t.file? p with
      | some s => .ok (.text s)
      | none => .error "No such file"

end Tree

end ModulePath
