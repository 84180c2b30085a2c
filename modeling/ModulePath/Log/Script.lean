import ModulePath.Log.Registry

/-!
# Programs that use loggers

A program as its loggers see it: log calls and blocks with a context, one after the other and one
inside the other, with exceptions that leave blocks at any depth and may be caught. A block enters
its context, runs its body and leaves the context again, however the body ends.
-/

set_option autoImplicit false

namespace ModulePath.Log

/-- What leaves a part of a program before its end. -/
inductive Raised where
  /-- An exception of the program itself. -/
  | exception (kind : String)
  /-- A call or a block that is not possible. -/
  | fault (f : Fault)

/-- A log call. -/
inductive Call where
  | plain (e : Entry)
  /-- A call with an exception, at the level of errors. -/
  | exception (text : String) (fields : Context) (kind exceptionText : String)

/-- A program. -/
inductive Script where
  | skip
  | raise (e : Raised)
  | log (name : String) (call : Call)
  /-- A block with a context, entered through a logger. -/
  | inContext (name : String) (fields : Context) (body : Script)
  | seq (first second : Script)
  /-- What leaves the body is handed to the handler, which may raise it again. -/
  | attempt (body : Script) (handler : Raised → Script)

namespace Registry

/-- The loggers with all their records kept. -/
def attended (r : Registry) : Registry :=
  { r with channels := r.channels.map fun e => (e.1, { e.2 with keepsRecords := true }) }

/-- The records of a call on a logger that are kept. -/
def keep (r : Registry) (name : String) : Call → Except Fault (List Record)
  | .plain e => r.emit name e
  | .exception text fields kind exceptionText =>
    r.emitException name text fields kind exceptionText

/-- The records of a call on a logger, whether they are kept or only shown. -/
def perform (r : Registry) (name : String) (call : Call) : Except Fault (List Record) := do
  let _ ← r.channel? name
  r.attended.keep name call

end Registry

namespace Script

/-- How a program ends, the loggers after it, and its records. -/
structure Run where
  ending : Except Raised Unit
  loggers : Registry
  records : List Record

/-- A run that goes on where another one ended. -/
def Run.before (start next : Run) : Run := { next with records := start.records ++ next.records }

/-- Run a program. -/
def run : Script → Registry → Run
  | skip, r => ⟨.ok (), r, []⟩
  | raise e, r => ⟨.error e, r, []⟩
  | log name call, r =>
    match r.perform name call with
    | .ok records => ⟨.ok (), r, records⟩
    | .error f => ⟨.error (.fault f), r, []⟩
  | inContext name fields body, r =>
    match r.push name fields with
    | .error f => ⟨.error (.fault f), r, []⟩
    | .ok inner =>
      let inside := body.run inner
      { inside with loggers := inside.loggers.pop }
  | seq first second, r =>
    let start := first.run r
    match start.ending with
    | .ok _ => start.before (second.run start.loggers)
    | .error _ => start
  | attempt body handler, r =>
    let start := body.run r
    match start.ending with
    | .ok _ => start
    | .error e => start.before ((handler e).run start.loggers)

end Script

end ModulePath.Log
