import ModulePath.Fault
import ModulePath.Filter.Build
import ModulePath.Value.Text

/-!
# Building filters from loose data

The ways to make a filter, from arguments of any kind. What is no text, or no filter, where one is
needed is refused with a message that names the argument.
-/

set_option autoImplicit false

namespace ModulePath

/-- Why no filter is made. -/
inductive Filter.Error where
  /-- An argument is not given. -/
  | missing (what : String)
  /-- An argument is no text. -/
  | notText (what kind : String)
  /-- An argument is no filter. -/
  | notFilter (what kind : String)
  /-- A parent path does not end in a separator. -/
  | unterminated (parent : String)
deriving DecidableEq

/-- The text of an error. -/
def Filter.Error.message : Filter.Error → String
  | missing what => what ++ " is None"
  | notText what kind => what ++ " must be a string, got " ++ kind
  | notFilter what kind => what ++ " must be a PathFilter, got " ++ kind
  | unterminated parent => "prefix must end with '/': " ++ Text.quoted parent

/-- An argument in the place of a filter: a filter, or any piece of data. -/
inductive Filter.Operand where
  | filter (f : Filter)
  | value (v : Value)

namespace Filter

/-- The text that an argument has to be. -/
def requireText (what : String) : Value → Outcome Error String
  | .null => Outcome.refuse (.missing what)
  | .str s => .ok s
  | v => Outcome.refuse (.notText what v.kindName)

/-- The filter that an argument has to be. -/
def requireFilter (what : String) : Operand → Outcome Error Filter
  | .filter f => .ok f
  | .value .null => Outcome.refuse (.missing what)
  | .value v => Outcome.refuse (.notFilter what v.kindName)

/-- The filter of exactly one path. -/
def equals? (path : Value) : Outcome Error Filter :=
  (requireText "path" path).map equals

/-- The filter of what goes on after a parent that ends in a separator. -/
def children? (parent : Value) : Outcome Error Filter := do
  let s ← requireText "prefix" parent
  if s.toList.getLast? == some '/' then .ok (children s)
  else Outcome.refuse (.unterminated s)

/-- The filter of the strict descendants of a path. -/
def childOf? (path : Value) : Outcome Error Filter :=
  (requireText "path" path).map childOf

/-- The filter of a path and its strict descendants. -/
def selfOrChildOf? (path : Value) : Outcome Error Filter :=
  (requireText "path" path).map selfOrChildOf

/-- The filter of the paths that a glob matches. -/
def glob? (pattern : Value) : Outcome Error Filter :=
  (requireText "glob" pattern).map glob

/-- The set that the members of a collection make up. -/
def textSet? (items : List Value) : Outcome Error TextSet := do
  if !Value.hashableAll items then Outcome.fault .kind
  else .ok (.ofList (← (Value.members items).mapM (requireText "path set member")))

/-- The filter of the members of a collection. -/
def oneOf? (paths : Value) : Outcome Error Filter :=
  match paths with
  | .null => Outcome.refuse (.missing "paths")
  | v =>
    match v.items? with
    | some items => (textSet? items).map oneOf
    | none => Outcome.fault .kind

/-- The inverse of a filter, simplified. -/
def negate? (f : Operand) : Outcome Error Filter :=
  (requireFilter "filter" f).map negate

/-- The inverse of a filter as it stands. -/
def inverse? (f : Operand) : Outcome Error Filter :=
  (requireFilter "delegate" f).map inverse

/-- The delegates that the arguments of an aggregate stand for. A single argument that is neither a
filter nor missing is a collection of delegates. -/
def spread : List Operand → Outcome Error (List Operand)
  | [.value .null] => .ok [.value .null]
  | [.value v] =>
    match v.items? with
    | some items => .ok (items.map .value)
    | none => Outcome.fault .kind
  | operands => .ok operands

/-- The aggregate of delegates. -/
def aggregate? (mode : Mode) (delegates : List Operand) : Outcome Error Filter :=
  (delegates.mapM (requireFilter "delegate")).map (aggregate mode)

end Filter

end ModulePath
