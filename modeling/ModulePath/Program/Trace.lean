import ModulePath.Program.Basic

/-!
# Programs on a file system

On a file system that nothing changes a program has an outcome and a trace: every question and every
log record in order, also when it ends in a failure. There are no users, and log files vanish.
-/

set_option autoImplicit false

namespace ModulePath

/-- The answer of a file system to a question. -/
def FileSystem.answer (fs : FileSystem) : (q : Query) → q.Answer
  | .presence p => fs.presence p
  | .kind p => fs.isDirectory p
  | .access p => fs.isReadable p
  | .listing p => fs.subdirectories p
  | .content p => fs.content p
  | .home _ => none
  | .openLog .. => .ok ()

/-- Something that a program does. -/
inductive Event where
  | asked (q : Query)
  | logged (r : Log.Record)

namespace Program

variable {ε α : Type}

/-- How a program ends. -/
def outcome (fs : FileSystem) : Program ε α → Outcome ε α
  | done r => r
  | log _ next => next.outcome fs
  | ask q next => (next (fs.answer q)).outcome fs

/-- What a program does, in order. -/
def events (fs : FileSystem) : Program ε α → List Event
  | done _ => []
  | log r next => .logged r :: next.events fs
  | ask q next => .asked q :: (next (fs.answer q)).events fs

/-- The records that a program logs. -/
def records (fs : FileSystem) (p : Program ε α) : List Log.Record :=
  (p.events fs).filterMap fun
    | .logged r => some r
    | .asked _ => none

/-- The questions that a program asks. -/
def queries (fs : FileSystem) (p : Program ε α) : List Query :=
  (p.events fs).filterMap fun
    | .asked q => some q
    | .logged _ => none

/-- The files that a program reads. -/
def reads (fs : FileSystem) (p : Program ε α) : List Path :=
  (p.queries fs).filterMap fun
    | .content q => some q
    | _ => none

end Program

end ModulePath
