import ModulePath.FileSystem.Disk
import ModulePath.Program.World

/-!
# Computers

A world in memory that programs run in: a disk, the home directories of users, and the log file that
is open. Log records are written to the file at once, so a program that reads the file sees them.
-/

set_option autoImplicit false

namespace ModulePath

/-- A computer. -/
structure Computer where
  disk : Disk := {}
  /-- The home directories of users. -/
  homes : List (String × String) := []
  /-- The time that log records carry. -/
  time : String := "1970-01-01 00:00:00"
  /-- The place of the open log file, and the level from which on it gets records. -/
  log : Option (List String × Log.Level) := none

namespace Computer

/-- Open a log file. A file name is taken as it is written: `..` drops the name before it. -/
def openLog (c : Computer) (file : String) (level : Log.Level) : Except Fault Unit × Computer :=
  if file.toList.contains '\x00' then (.error .value, c)
  else
    match c.disk.openFile (c.disk.absolute (Path.ofText file)).collapse with
    | .ok (place, disk) => (.ok (), { c with disk, log := some (place, level) })
    | .error f => (.error f.fault, c)

/-- The answer of a computer to a question. -/
def answer (c : Computer) : (q : Query) → q.Answer × Computer
  | .presence p => (c.disk.fileSystem.presence p, c)
  | .kind p => (c.disk.fileSystem.isDirectory p, c)
  | .access p => (c.disk.fileSystem.isReadable p, c)
  | .listing p => (c.disk.fileSystem.subdirectories p, c)
  | .content p => (c.disk.fileSystem.content p, c)
  | .home user => (c.homes.lookup user, c)
  | .openLog file level => c.openLog file level

/-- Take a log record. -/
def record (c : Computer) (r : Log.Record) : Computer :=
  match c.log with
  | some (place, level) =>
    if level.passes r.level then { c with disk := c.disk.append place (r.line c.time).toUTF8 }
    else c
  | none => c

/-- Computers as a world. -/
def world : World Computer := ⟨answer, record⟩

end Computer

end ModulePath
