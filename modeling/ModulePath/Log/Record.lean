import ModulePath.Log.Level
import ModulePath.Value.Text

/-!
# Log records

A record carries a text and a context of keys and values. The context of a record is merged from
the blocks around the call, from the outside in, and the fields of the call: a key keeps the place
of its first binding and has the value of its last. A message writes the values of the context, so
there is no message for a context with a value that cannot be written.
-/

set_option autoImplicit false

namespace ModulePath.Log

/-- Keys with their values, in order. -/
abbrev Context := List (String × Value)

namespace Context

/-- Bind a key: one that is bound keeps its place. -/
def bind (key : String) (value : Value) : Context → Context
  | [] => [(key, value)]
  | e :: rest => if e.1 = key then (key, value) :: rest else e :: bind key value rest

/-- Bind all keys of `inner` after those of `outer`. -/
def update (outer inner : Context) : Context :=
  inner.foldl (fun c e => bind e.1 e.2 c) outer

/-- The context of nested blocks, the outermost first. -/
def ofFrames (frames : List Context) : Context := frames.foldl update []

/-- A context in a message. -/
def text (c : Context) : String :=
  String.intercalate " " (c.map fun e => e.1 ++ "=" ++ e.2.display)

/-- Whether the values of a context can be written. -/
def hasText (c : Context) : Bool := c.all fun e => e.2.hasText

end Context

/-- A field with a count, as messages insert it. -/
def countField (key : String) (n : Nat) : String × Value := (key, .str (toString n))

/-- What a call logs: its level, its text and its fields. -/
structure Entry where
  level : Level
  text : String
  fields : Context := []

/-- A record. -/
structure Record where
  logger : String
  level : Level
  text : String
  context : Context
  /-- Whether the record comes with an exception. -/
  exception : Bool := false

namespace Record

/-- The message of a record. -/
def message (r : Record) : String :=
  if r.context.isEmpty then r.text else r.text ++ " | " ++ r.context.text

/-- A record inside a context: what it says itself about a key wins. -/
def within (c : Context) (r : Record) : Record :=
  { r with context := (Context.update [] c).update r.context }

/-- A record in a log file, written at a time. -/
def line (time : String) (r : Record) : String :=
  String.intercalate " - " [time, r.logger, r.level.name, r.message] ++ "\n"

/-- The record of a call inside blocks. -/
def ofEntry (logger : String) (frames : List Context) (e : Entry) : Record :=
  ⟨logger, e.level, e.text, (Context.ofFrames frames).update e.fields, false⟩

end Record

end ModulePath.Log
