import ModulePath.BuiltIn
import ModulePath.Command.Run
import Std.Time.Zoned

/-!
# The program

A run asks the real files and the real system.
-/

set_option autoImplicit false

namespace ModulePath.Main

/-- A file by its path, from the current directory on. -/
def place (p : Path) := (do return (← IO.currentDir) / p.text : IO _)

/-- The directories in a directory. -/
def listing (p : Path) : IO (Except String (List String)) := do
  try
    let dirs ← (← (← place p).readDir).toList.filterM fun e => e.path.isDir
    return .ok (dirs.map (·.fileName))
  catch e => return .error (toString e)

/-- What a file holds. -/
def content (p : Path) : IO (Except String Content) := do
  if ← (← place p).isDir then return .error "Is a directory"
  else
    try return .ok (.bytes (← IO.FS.readBinFile (← place p)))
    catch e => return .error (toString e)

/-- A text without the end of its line. -/
def trimLine (cs : List Char) : List Char := cs.takeWhile (· ≠ '\n')

/-- The variables of the environment, which the system offers as a file. -/
def environment : IO Config.Environment.Variables := do
  let bytes ← try IO.FS.readBinFile "/proc/self/environ" catch _ => pure ByteArray.empty
  let text := (String.fromUTF8? bytes).getD ""
  return ((Text.splitAt '\x00' text.toList).filter fun cs => !cs.isEmpty).map fun cs =>
    (String.ofList (cs.takeWhile (· ≠ '=')), String.ofList ((cs.dropWhile (· ≠ '=')).drop 1))

/-- The home directory of a user in the list of users that the system offers as a file. -/
def listedHome (user : String) : IO (Option String) := do
  let lines ← try IO.FS.lines "/etc/passwd" catch _ => pure #[]
  return lines.toList.findSome? fun line =>
    match Text.splitAt ':' (trimLine line.toList) with
    | [name, _, _, _, _, home, _] =>
      if String.ofList name = user then some (String.ofList home) else none
    | _ => none

/-- The home directory of a user. -/
def home (user : String) : IO (Option String) := do
  if user.isEmpty then
    match (← environment).lookup "HOME" with
    | some h => return some h
    | none => listedHome "root"
  else listedHome user

/-- The open log file, and the level from which on it gets records. -/
abbrev OpenLog := Option (IO.FS.Handle × Log.Level)

/-- Open a log file. -/
def openLog (file : String) (level : Log.Level) : StateT OpenLog IO (Except Fault Unit) := do
  if file.toList.contains '\x00' then return .error .value
  else
    try
      let h ← IO.FS.Handle.mk (← place (Path.ofText file)) .append
      set (some (h, level))
      return .ok ()
    catch _ => return .error .system

/-- The answer to a question. -/
def answer : (q : Query) → StateT OpenLog IO q.Answer
  | .presence p => do return .ok (← (← place p).pathExists)
  | .kind p => do (← place p).isDir
  | .access p => do (← place p).pathExists
  | .listing p => do listing p
  | .content p => do content p
  | .home user => do home user
  | .openLog file level => openLog file level

/-- A number with at least two digits. -/
def twoDigits (n : Int) : String := if n < 10 then "0" ++ toString n else toString n

/-- The date and the time of day. -/
def time : IO String := do
  let t ← Std.Time.PlainDateTime.now
  let date := [toString t.year.toInt, twoDigits t.month.val, twoDigits t.day.val]
  let hour := [twoDigits t.hour.val, twoDigits t.minute.val, twoDigits t.second.val]
  return String.intercalate "-" date ++ " " ++ String.intercalate ":" hour

/-- Write a record to the log file. -/
def record (r : Log.Record) : StateT OpenLog IO Unit := do
  match ← get with
  | some (h, level) => if level.passes r.level then h.putStr (r.line (← time)) else pure ()
  | none => pure ()

/-- Run a program. -/
def run {ε α : Type} : Program ε α → StateT OpenLog IO (Outcome ε α)
  | .done r => return r
  | .log r next => do
    record r
    run next
  | .ask q next => do run (next (← answer q))

/-- The text for a usage error. -/
def usage : String := "usage: modfilter [-h] [-v] [-c FILE] [--debug] COMMAND ...\n"

/-- Print the answer of a run. -/
def print (a : Command.Answer) : IO UInt32 := do
  IO.print a.output
  IO.eprint (a.errors.getD (if a.exit = 0 then "" else usage))
  return a.exit.toUInt32

/-- Print how a run ends that has no answer. -/
def printFailure : Failure Empty → IO UInt32
  | .fault f => do
    IO.eprintln ((f.text?.map fun text => "Error: " ++ text).getD "Error")
    return 1

end ModulePath.Main

/-- The command line program. -/
def main (words : List String) : IO UInt32 := do
  let vars ← ModulePath.Main.environment
  let run := ModulePath.Command.run .builtIn vars words
  match (← (ModulePath.Main.run run).run none).1 with
  | .ok a => ModulePath.Main.print a
  | .error e => ModulePath.Main.printFailure e
