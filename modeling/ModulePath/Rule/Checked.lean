import ModulePath.Filter.Checked
import ModulePath.Rule.Basic

/-!
# Rules from loose data

A rule from a path or a collection of paths of any kind, exactly one of which must be given.
-/

set_option autoImplicit false

namespace ModulePath

/-- Why no rule is made. -/
inductive Rule.Error where
  /-- Both a path and a set of paths are given, or neither. -/
  | arity
  /-- The rule has no filter. -/
  | filter (cause : Filter.Error)
deriving DecidableEq

/-- The text of an error. -/
def Rule.Error.message : Rule.Error → String
  | arity => "PathRule needs exactly one of path or paths"
  | filter cause => cause.message

namespace Rule

/-- Whether a piece of data that is looked through for a wildcard holds one; `none` if it cannot be
looked through. -/
def holdsWildcard? : Value → Option Bool
  | .str s => some (Glob.isGlob s)
  | v => v.items?.map fun items =>
    items.any fun i => Value.keyEq i (.str "*") || Value.keyEq i (.str "?")

/-- The selector of a path of any kind. -/
def pathSelector? : Value → Outcome Error Selector
  | .str s => .ok (.path s)
  | v =>
    match holdsWildcard? v with
    | none => Outcome.fault .kind
    | some true => Outcome.refuse (.filter (.notText "glob" v.kindName))
    | some false => Outcome.fault .missingAttribute

/-- The selector of a collection of paths of any kind. -/
def setSelector? (paths : Value) : Outcome Error Selector :=
  match paths.items? with
  | none => Outcome.fault .kind
  | some items => ((Filter.textSet? items).mapCause .filter).map .set

/-- The rule of a path or of a collection of paths. -/
def ofValues? (included : Bool) (path paths : Value) : Outcome Error Rule :=
  match path, paths with
  | .null, .null => Outcome.refuse .arity
  | .null, paths => (setSelector? paths).map (⟨included, ·⟩)
  | path, .null => (pathSelector? path).map (⟨included, ·⟩)
  | _, _ => Outcome.refuse .arity

/-- The set rule of a collection of paths, which has to be one. -/
def ofCollection? (included : Bool) (paths : Value) : Outcome Error Rule :=
  (setSelector? paths).map (⟨included, ·⟩)

end Rule

end ModulePath
