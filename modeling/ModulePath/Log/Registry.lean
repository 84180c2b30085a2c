import ModulePath.Log.Record

/-!
# Loggers

Loggers of one name share one level. A logger can be registered, so that looking up its name finds
it; looking up a name that is not registered makes and registers a new logger. All loggers share one
stack of contexts.
-/

set_option autoImplicit false

namespace ModulePath.Log

/-- What loggers of one name share. -/
structure Channel where
  level : Level
  /-- Whether records are kept; a logger made by a look-up shows them on the console only. -/
  keepsRecords : Bool

/-- The loggers of a program. -/
structure Registry where
  /-- The channel of every name that has one. -/
  channels : List (String × Channel) := []
  /-- The registered names in order, and whether the logger last made by `create` is the registered
  one. -/
  registered : List (String × Bool) := []
  /-- The contexts around the next call, the outermost first. -/
  frames : List Context := []

/-- Give a name a value in place of the one it has. -/
def assign {α : Type} (name : String) (a : α) : List (String × α) → List (String × α)
  | [] => [(name, a)]
  | e :: rest => if e.1 = name then (name, a) :: rest else e :: assign name a rest

/-- The value of a name. -/
def valueOf? {α : Type} (name : String) (entries : List (String × α)) : Option α :=
  (entries.find? fun e => e.1 = name).map (·.2)

/-- Names that the fields of a call cannot have, as they name other parts of it. -/
def reservedFields : List String := ["self", "msg"]

/-- The fields that come with an exception. -/
def exceptionFields (kind text : String) : Context :=
  [("exception_type", .str kind), ("exception_message", .str text)]

namespace Registry

/-- The channel of a name. -/
def channel? (r : Registry) (name : String) : Except Fault Channel :=
  match valueOf? name r.channels with
  | some c => .ok c
  | none => .error .missingKey

/-- Give a name a channel. -/
def setChannel (r : Registry) (name : String) (c : Channel) : Registry :=
  { r with channels := assign name c r.channels }

/-! ## Levels -/

/-- Make a logger that keeps its records. -/
def create (r : Registry) (name : String) (level : Value) : Except Fault Registry := do
  let level ← Level.ofValue? level
  let r := r.setChannel name ⟨level, true⟩
  return { r with registered := r.registered.map fun e => if e.1 = name then (name, false) else e }

/-- Set the level of a logger. -/
def setLevel (r : Registry) (name : String) (level : Value) : Except Fault Registry := do
  let level ← Level.ofValue? level
  let c ← r.channel? name
  return r.setChannel name { c with level }

/-- The level of a logger. -/
def level? (r : Registry) (name : String) : Except Fault Level :=
  (r.channel? name).map (·.level)

/-- Whether a logger lets records of a level pass. -/
def isEnabled? (r : Registry) (name : String) (level : Value) : Except Fault Bool := do
  let level ← Level.ofValue? level
  let c ← r.channel? name
  return c.level.passes level

/-! ## Contexts and calls -/

/-- Enter a context through a logger. -/
def push (r : Registry) (name : String) (c : Context) : Except Fault Registry := do
  let _ ← r.channel? name
  if (c.map (·.1)).contains "self" then .error .kind
  else return { r with frames := r.frames ++ [c] }

/-- Leave the innermost context. -/
def pop (r : Registry) : Registry := { r with frames := r.frames.dropLast }

/-- The records that a call on a logger emits. The message of a call that passes is written before
it is known where it goes. -/
def emit (r : Registry) (name : String) (e : Entry) : Except Fault (List Record) := do
  let c ← r.channel? name
  if (e.fields.map (·.1)).any reservedFields.contains then .error .kind
  else if c.level.passes e.level then
    let emitted := Record.ofEntry name r.frames e
    if emitted.context.hasText then return if c.keepsRecords then [emitted] else []
    else .error .digits
  else return []

/-- The records that a call with an exception emits. -/
def emitException (r : Registry) (name text : String) (fields : Context)
    (kind exceptionText : String) : Except Fault (List Record) :=
  if (fields.map (·.1)).contains "exc" then .error .kind
  else
    let all := Context.update (Context.update [] fields) (exceptionFields kind exceptionText)
    (r.emit name ⟨.error, text, all⟩).map fun rs => rs.map fun rec => { rec with exception := true }

/-! ## Registration -/

/-- Register the logger last made under a name. -/
def register (r : Registry) (name : String) : Except Fault Registry := do
  let _ ← r.channel? name
  return { r with registered := assign name true r.registered }

/-- Find the registered logger of a name, or make one. The answer says whether it is the one last
made by `create`, and its level. -/
def lookup (r : Registry) (name : String) : (Bool × Level) × Registry :=
  match valueOf? name r.registered with
  | some isLast =>
    ((isLast, ((valueOf? name r.channels).map (·.level)).getD .info), r)
  | none =>
    ((false, .info),
      { r.setChannel name ⟨.info, false⟩ with registered := r.registered ++ [(name, false)] })

/-- Set the level of all registered loggers. -/
def configure (r : Registry) (level : Value) : Except Fault Registry := do
  let level ← Level.ofValue? level
  return { r with
    channels := r.channels.map fun e =>
      if (valueOf? e.1 r.registered).isSome then (e.1, { e.2 with level }) else e }

end Registry

end ModulePath.Log
