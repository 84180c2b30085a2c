import ModulePath.Filter.Basic

/-!
# Building filters

The ways to make a filter. They simplify where that changes no answer: the inverse of an inverse is
the filter itself, the inverse of a constant is the other constant, and a list without rules is the
constant of its default.
-/

set_option autoImplicit false

namespace ModulePath

namespace Filter

/-- The filter that accepts every path. -/
def acceptAll : Filter := const true

/-- The filter that rejects every path. -/
def rejectAll : Filter := const false

/-- A text that ends in a separator, with one added if it does not. -/
def withSeparator (path : String) : String :=
  if path.toList.getLast? == some '/' then path else path ++ "/"

/-- The strict descendants of a path. -/
def childOf (path : String) : Filter := children (withSeparator path)

/-- What any of the filters accepts. -/
def anyOf (filters : List Filter) : Filter := aggregate .any filters

/-- What all of the filters accept. -/
def allOf (filters : List Filter) : Filter := aggregate .all filters

/-- A path and its strict descendants. -/
def selfOrChildOf (path : String) : Filter := anyOf [equals path, childOf path]

/-- The members of a set. -/
def oneOf (paths : TextSet) : Filter := members paths

/-- What a filter rejects. -/
def negate : Filter → Filter
  | inverse delegate => delegate
  | const answer => const (!answer)
  | f => inverse f

/-- What none of the filters accepts. -/
def noneOf (filters : List Filter) : Filter := negate (anyOf filters)

end Filter

/-! ## Rule lists -/

/-- A rule list in the making. -/
structure Filter.Builder where
  /-- The answer for a path that no rule applies to. -/
  default : Bool
  /-- The rules so far, in order. -/
  rules : List (Filter × Bool)

namespace Filter.Builder

/-- A builder without rules. -/
def new (default : Bool) : Builder := ⟨default, []⟩

/-- Add a rule after the others. -/
def add (b : Builder) (filter : Filter) (answer : Bool) : Builder :=
  { b with rules := b.rules ++ [(filter, answer)] }

/-- Add rules after the others. -/
def addAll (b : Builder) (rules : List (Filter × Bool)) : Builder :=
  { b with rules := b.rules ++ rules }

/-- The number of rules. -/
def size (b : Builder) : Nat := b.rules.length

/-- Whether there are no rules. -/
def isEmpty (b : Builder) : Bool := b.rules.isEmpty

/-- The filter of the rules. -/
def create (b : Builder) : Filter :=
  if b.rules.isEmpty then const b.default else Filter.rules b.rules b.default

end Filter.Builder

end ModulePath
