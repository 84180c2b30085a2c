import ModulePath.FileSystem.Basic

/-!
# Disks

A file system of directories, files and symbolic links that paths are followed through: `..` is the
directory above the one that was reached, and a link stands for its target. Everything can be read.
A file can be opened for writing; it is made if nothing is there, at the end of all links.
-/

set_option autoImplicit false

namespace ModulePath

/-- What there is at a place of a disk. -/
inductive Disk.Entry where
  | directory
  | file (bytes : ByteArray)
  | link (target : String)
  /-- A device that is empty and stays so whatever is written to it. -/
  | sink

/-- A disk. A place is the list of names that leads to it from the top. -/
structure Disk where
  /-- The places where there is something; the top is always a directory. -/
  entries : List (List String × Disk.Entry) := []
  /-- The place that relative paths begin at. -/
  current : List String := []

namespace Disk

/-- Why a path leads nowhere. -/
inductive Failure where
  | missing
  | notDirectory
  | directory
  | tooManyLinks
  | tooLong
deriving DecidableEq

/-- The text of a failure. -/
def Failure.reason : Failure → String
  | missing => "No such file or directory"
  | notDirectory => "Not a directory"
  | directory => "Is a directory"
  | tooManyLinks => "Too many levels of symbolic links"
  | tooLong => "File name too long"

/-- A failure as a fault. -/
def Failure.fault : Failure → Fault
  | missing => .missingFile
  | notDirectory => .notDirectory
  | directory => .directory
  | tooManyLinks | tooLong => .system

/-! ## Building -/

/-- What there is at a place. -/
def entry? (d : Disk) (place : List String) : Option Entry :=
  if place.isEmpty then some .directory else d.entries.lookup place

/-- Put an entry at a place, in front of those that were there. -/
def put (d : Disk) (place : List String) (e : Entry) : Disk :=
  { d with entries := (place, e) :: d.entries.filter fun x => x.1 ≠ place }

/-- Make the directories that lead to a place. -/
def makeParents (d : Disk) (place : List String) : Disk :=
  ((List.range place.length).map fun n => place.take n).foldl
    (fun d p => if (d.entry? p).isSome then d else d.put p .directory) d

/-- A path from the top on. -/
def absolute (d : Disk) (p : Path) : Path :=
  if p.isAbsolute then p else ⟨.root, d.current ++ p.parts⟩

/-- The place of a path that no link is on. -/
def placeOf (d : Disk) (p : Path) : List String := (d.absolute p).collapse.parts

/-- Add an entry and the directories that lead to it. -/
def add (d : Disk) (p : Path) (e : Entry) : Disk :=
  (d.makeParents (d.placeOf p)).put (d.placeOf p) e

/-! ## Following paths -/

/-- How many links a path may lead through. -/
def maxLinks : Nat := 40

/-- How many bytes a name may have. -/
def maxName : Nat := 255

/-- How many bytes the text of a path may have. -/
def maxPath : Nat := 4095

/-- The steps of the target of a link. A separator at the end is an empty step: like the step `.` it
only leads on from a directory. -/
def stepsOf (target : String) : List String :=
  let names := (Text.splitAt '/' target.toList).map String.ofList
  names.filter (!·.isEmpty) ++ if names.getLast? == some "" then [""] else []

/-- Whether a step stays in the directory that was reached. -/
def isStay (step : String) : Bool := step = "" || step = "."

/-- Follow steps from a directory. The last step may lead to a file, or, if `create` is set, to
nothing; a separator behind it asks for a directory, which cannot be made. -/
def follow (d : Disk) (create : Bool) (links : Nat) (place : List String) : List String →
    Except Failure (List String)
  | [] => .ok place
  | name :: rest =>
    if isStay name then follow d create links place rest
    else if name = ".." then follow d create links place.dropLast rest
    else if create && rest = [""] then .error .directory
    else if maxName < name.utf8ByteSize then .error .tooLong
    else
      match d.entry? (place ++ [name]) with
      | none => if create && rest.isEmpty then .ok (place ++ [name]) else .error .missing
      | some .directory => follow d create links (place ++ [name]) rest
      | some (.link target) =>
        match links with
        | 0 => .error .tooManyLinks
        | links + 1 =>
          follow d create links (if target.toList.head? == some '/' then [] else place)
            (stepsOf target ++ rest)
      | some _ => if rest.isEmpty then .ok (place ++ [name]) else .error .notDirectory
termination_by names => (links, names.length)

/-- The place that a path leads to. -/
def locate (d : Disk) (create : Bool) (p : Path) : Except Failure (List String) :=
  if maxPath < p.text.utf8ByteSize then .error .tooLong
  else d.follow create maxLinks (if p.isAbsolute then [] else d.current) p.parts

/-- What a path leads to. -/
def find (d : Disk) (p : Path) : Except Failure Entry := do
  let place ← d.locate false p
  match d.entry? place with
  | some e => .ok e
  | none => .error .missing

/-! ## Answers -/

/-- Whether a path leads to a directory. -/
def isDirectory (d : Disk) (p : Path) : Bool :=
  match d.find p with
  | .ok .directory => true
  | _ => false

/-- Whether a path leads to anything. A path that is too long cannot be looked up. -/
def presence (d : Disk) (p : Path) : Except Fault Bool :=
  match d.find p with
  | .ok _ => .ok true
  | .error .tooLong => .error .system
  | .error _ => .ok false

/-- The name of a place right in a directory. -/
def nameIn? (dir place : List String) : Option String :=
  if place.dropLast = dir then place.getLast? else none

/-- Whether an entry of a directory is one itself. A link to nothing is none; one that cannot be
followed for another reason is a failure. -/
def isSubdirectory? (d : Disk) (p : Path) : Except Failure Bool :=
  match d.find p with
  | .ok .directory => .ok true
  | .ok _ => .ok false
  | .error .missing => .ok false
  | .error f => .error f

/-- The names of the directories in a directory. -/
def subdirectories? (d : Disk) (p : Path) : Except Failure (List String) := do
  let dir ← d.locate false p
  match d.entry? dir with
  | some .directory =>
    (d.entries.filterMap fun e => (nameIn? dir e.1).map (·, e.2)).filterMapM fun (name, e) =>
      match e with
      | .directory => .ok (some name)
      | .link _ => do
        if ← d.isSubdirectory? (p.join ⟨.relative, [name]⟩) then return some name
        else return none
      | _ => .ok none
  | _ => .error .notDirectory

/-- The bytes of a file. -/
def bytes? (d : Disk) (p : Path) : Except Failure ByteArray := do
  match ← d.find p with
  | .file bytes => .ok bytes
  | .sink => .ok .empty
  | _ => .error .directory

/-- A disk as a file system. -/
def fileSystem (d : Disk) : FileSystem where
  presence := d.presence
  isDirectory := d.isDirectory
  isReadable p := (d.find p).isOk
  subdirectories p := (d.subdirectories? p).mapError Failure.reason
  content p := ((d.bytes? p).map .bytes).mapError Failure.reason

/-! ## Writing -/

/-- Open a file for writing: its place, and the disk with the file on it. -/
def openFile (d : Disk) (p : Path) : Except Failure (List String × Disk) := do
  let place ← d.locate true p
  match d.entry? place with
  | some .directory => .error .directory
  | some _ => .ok (place, d)
  | none => .ok (place, d.put place (.file .empty))

/-- Write bytes at the end of the file at a place. -/
def append (d : Disk) (place : List String) (more : ByteArray) : Disk :=
  match d.entry? place with
  | some (.file bytes) => d.put place (.file (bytes ++ more))
  | _ => d

end Disk

end ModulePath
