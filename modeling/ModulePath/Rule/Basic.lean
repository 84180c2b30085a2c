import ModulePath.Filter.WellKnown

/-!
# Path rules

A rule of a module descriptor includes or excludes paths. What it applies to is one path, read as a
glob, as a directory or as an exact path, or a set of exact paths.
-/

set_option autoImplicit false

namespace ModulePath

/-- What a rule applies to. -/
inductive Rule.Selector where
  /-- One path: a glob if it holds a wildcard, else a directory if it ends in a separator, else
  exactly this path. -/
  | path (p : String)
  /-- The members of a set, none of them read as a glob or a directory. -/
  | set (members : TextSet)
deriving DecidableEq

/-- A rule. -/
structure Rule where
  /-- Whether the rule includes what it applies to. -/
  included : Bool
  selector : Rule.Selector
deriving DecidableEq

namespace Rule

/-- The four kinds of rules. -/
inductive Kind where
  | includePath
  | excludePath
  | includeSet
  | excludeSet
deriving DecidableEq, Repr

/-- The kind of a rule in a descriptor. -/
def Kind.text : Kind → String
  | includePath => "include"
  | excludePath => "exclude"
  | includeSet => "include-set"
  | excludeSet => "exclude-set"

/-- Read a kind. -/
def Kind.ofText? (s : String) : Option Kind :=
  [includePath, excludePath, includeSet, excludeSet].find? fun k => k.text == s

/-- Whether rules of the kind include. -/
def Kind.included : Kind → Bool
  | includePath | includeSet => true
  | excludePath | excludeSet => false

/-- Whether rules of the kind apply to a set. -/
def Kind.isSet : Kind → Bool
  | includeSet | excludeSet => true
  | includePath | excludePath => false

/-- The kind of a rule. -/
def kind : Rule → Kind
  | ⟨true, .path _⟩ => .includePath
  | ⟨false, .path _⟩ => .excludePath
  | ⟨true, .set _⟩ => .includeSet
  | ⟨false, .set _⟩ => .excludeSet

/-- A rule in reports. -/
def text (r : Rule) : String :=
  r.kind.text ++ " " ++
    match r.selector with
    | .path p => p
    | .set members => "[" ++ String.intercalate ", " members.elements ++ "]"

/-- The filter of what a selector applies to. -/
def Selector.filter : Selector → Filter
  | .set members => Filter.oneOf members
  | .path p =>
    if Glob.isGlob p then Filter.glob p
    else if p.toList.getLast? == some '/' then Filter.childOf p
    else Filter.equals p

/-- The filter of what a rule applies to. -/
def filter (r : Rule) : Filter := r.selector.filter

/-- A rule of a rule list filter. -/
def toFilterRule (r : Rule) : Filter × Bool := (r.filter, r.included)

end Rule

end ModulePath
