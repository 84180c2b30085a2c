import ModulePath.FileSystem.Basic
import ModulePath.Log.Record

/-!
# Programs

A program asks questions about files and the system it runs on, logs, and ends in an outcome. What
it does next can depend on the answers; it says nothing about where they come from.
-/

set_option autoImplicit false

namespace ModulePath

/-! ## Questions -/

/-- A question of a program. -/
inductive Query where
  | presence (p : Path)
  | kind (p : Path)
  | access (p : Path)
  | listing (p : Path)
  | content (p : Path)
  /-- Where the home directory of a user is; no name stands for the one who runs the program. -/
  | home (user : String)
  /-- Whether a file can be the log file, which from then on gets the records from a level on. -/
  | openLog (file : String) (level : Log.Level)
deriving DecidableEq

/-- What answers a question. -/
@[reducible] def Query.Answer : Query → Type
  | presence _ => Except Fault Bool
  | kind _ => Bool
  | access _ => Bool
  | listing _ => Except String (List String)
  | content _ => Except String Content
  | home _ => Option String
  | openLog .. => Except Fault Unit

/-! ## Programs -/

/-- A program. -/
inductive Program (ε α : Type) where
  | done (r : Outcome ε α)
  | log (r : Log.Record) (next : Program ε α)
  | ask (q : Query) (next : q.Answer → Program ε α)

namespace Program

variable {ε δ α β : Type}

/-- Go on after a program that gives an answer. -/
def andThen (p : Program ε α) (f : α → Program ε β) : Program ε β :=
  match p with
  | done (.ok a) => f a
  | done (.error e) => done (.error e)
  | log r next => log r (next.andThen f)
  | ask q next => ask q fun a => (next a).andThen f

instance : Monad (Program ε) where
  pure a := done (.ok a)
  bind := andThen

/-- The program that does nothing. -/
def ofOutcome (r : Outcome ε α) : Program ε α := done r

/-- Refuse for a cause. -/
def refuse (cause : ε) : Program ε α := done (Outcome.refuse cause)

/-- End in a fault. -/
def fault (f : Fault) : Program ε α := done (Outcome.fault f)

/-- An answer, or a fault. -/
def ofFaulty (r : Except Fault α) : Program ε α := done (r.mapError .fault)

/-- Log a record. -/
def note (r : Log.Record) : Program ε Unit := log r (done (.ok ()))

/-- Log records. -/
def noteAll : List Log.Record → Program ε Unit
  | [] => done (.ok ())
  | r :: rs => log r (noteAll rs)

/-- Ask a question. -/
def query (q : Query) : Program ε q.Answer := ask q fun a => done (.ok a)

/-- Carry the causes over into another program. -/
def mapCause (g : ε → δ) : Program ε α → Program δ α
  | done r => done (Outcome.mapCause g r)
  | log r next => log r (next.mapCause g)
  | ask q next => ask q fun a => (next a).mapCause g

/-- Go on also if the program refuses. -/
def attempt : Program ε α → Program δ (Except ε α)
  | done (.ok a) => done (.ok (.ok a))
  | done (.error (.refused cause)) => done (.ok (.error cause))
  | done (.error (.fault f)) => done (Outcome.fault f)
  | log r next => log r next.attempt
  | ask q next => ask q fun a => (next a).attempt

/-- Run a program inside a log context. -/
def within (c : Log.Context) : Program ε α → Program ε α
  | done r => done r
  | log r next => log (r.within c) (next.within c)
  | ask q next => ask q fun a => (next a).within c

/-! ## Asking -/

/-- Ask whether there is anything at a path. -/
def presence? (p : Path) : Program ε Bool := ask (.presence p) fun a => done (a.mapError .fault)

/-- Ask whether there is anything at a path; a path that cannot be looked up leads to nothing. -/
def isPresent (p : Path) : Program ε Bool :=
  ask (.presence p) fun
    | .ok b => done (.ok b)
    | .error _ => done (.ok false)

/-- Ask whether a path is a directory. -/
def isDirectory (p : Path) : Program ε Bool := query (.kind p)

/-- Ask whether a path can be read. -/
def isReadable (p : Path) : Program ε Bool := query (.access p)

/-- Ask for the directories in a directory; `cause` is why not. -/
def subdirectories (p : Path) (cause : String → ε) : Program ε (List String) :=
  ask (.listing p) fun a => done (a.mapError fun reason => .refused (cause reason))

/-- Ask for what a file holds; `cause` is why not. -/
def content (p : Path) (cause : String → ε) : Program ε Content :=
  ask (.content p) fun a => done (a.mapError fun reason => .refused (cause reason))

/-- Ask for the text of a file; `cause` is why not. -/
def text (p : Path) (cause : String → ε) : Program ε String :=
  ask (.content p) fun
    | .ok c => done (c.text?.mapError .fault)
    | .error reason => done (Outcome.refuse (cause reason))

end Program

end ModulePath
