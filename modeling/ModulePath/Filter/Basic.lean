import ModulePath.Glob.Source
import ModulePath.Text.TextSet

/-!
# Path filters

A filter decides which resource paths it accepts. Paths are texts with `/` between their parts.

`Filter.accepts` gives the decision, `Filter.text` the text of a filter in reports, and
`Filter.same` says when two filters are equal: by what they are built from, glob filters by the
source of their pattern and not by its spelling.
-/

set_option autoImplicit false

namespace ModulePath

/-- Whether one accepting delegate decides an aggregate filter, or one rejecting delegate. -/
inductive Filter.Mode where
  | any
  | all
deriving DecidableEq, Repr

/-- A path filter. -/
inductive Filter where
  /-- The same answer for every path. -/
  | const (answer : Bool)
  /-- Exactly one path. -/
  | equals (path : String)
  /-- The paths that go on after `parent`, which ends in a separator. -/
  | children (parent : String)
  /-- The members of a set. -/
  | members (paths : TextSet)
  /-- The paths that a glob matches. -/
  | glob (pattern : String)
  /-- What another filter rejects. -/
  | inverse (delegate : Filter)
  /-- What any, or all, of some filters accept. -/
  | aggregate (mode : Filter.Mode) (delegates : List Filter)
  /-- The answer of the first rule whose filter accepts the path, or else the default. -/
  | rules (rules : List (Filter × Bool)) (default : Bool)
  /-- A named filter with a fixed answer, which stands for a decision made elsewhere. -/
  | probe (name : String) (answer : Bool)
deriving Inhabited

namespace Filter

/-- The answer that decides an aggregate as soon as one delegate gives it. -/
def Mode.dominant : Mode → Bool
  | any => true
  | all => false

/-- Whether `path` is `parent` and at least one character more. -/
def isChild (parent path : String) : Bool :=
  parent.length < path.length && parent.toList.isPrefixOf path.toList

/-! ## Decision -/

mutual
/-- Whether a filter accepts a path. -/
def accepts (path : String) : Filter → Bool
  | const answer => answer
  | equals p => path == p
  | children parent => isChild parent path
  | members paths => paths.contains path
  | glob pattern => (Glob.Pattern.ofGlob pattern).accepts path
  | inverse delegate => !accepts path delegate
  | aggregate mode delegates => decideFirst path mode.dominant delegates
  | rules rs default => firstRule path rs default
  | probe _ answer => answer
/-- The dominant answer if one of the filters gives it, otherwise its opposite. -/
def decideFirst (path : String) (dominant : Bool) : List Filter → Bool
  | [] => !dominant
  | f :: fs => if accepts path f == dominant then dominant else decideFirst path dominant fs
/-- The answer of the first rule that applies. -/
def firstRule (path : String) : List (Filter × Bool) → Bool → Bool
  | [], default => default
  | (f, answer) :: rs, default => if accepts path f then answer else firstRule path rs default
end

/-! ## Text -/

mutual
/-- A filter in reports. -/
def text : Filter → String
  | const answer => if answer then "Accept" else "Reject"
  | equals path => "is \"" ++ path ++ "\""
  | children parent => "children of \"" ++ parent ++ "\""
  | members paths => "in \x7b" ++ String.intercalate ", " paths.elements ++ "\x7d"
  | glob pattern => "match \"" ++ pattern ++ "\""
  | inverse delegate => "not " ++ text delegate
  | aggregate mode delegates =>
    (match mode with
      | .any => "Any"
      | .all => "All") ++ " of (" ++ String.intercalate "," (textAll delegates) ++ ")"
  | rules rs default =>
    "multi-path filter \x7b" ++ textRules rs ++
      (if default then "default accept" else "default reject") ++ "\x7d"
  | probe name _ => "probe " ++ name
/-- The filters of a list in reports. -/
def textAll : List Filter → List String
  | [] => []
  | f :: fs => text f :: textAll fs
/-- Rules in reports. -/
def textRules : List (Filter × Bool) → String
  | [] => ""
  | (f, answer) :: rs =>
    (if answer then "include " else "exclude ") ++ text f ++ ", " ++ textRules rs
end

/-! ## Equality -/

mutual
/-- Whether two filters are equal. -/
def same : Filter → Filter → Bool
  | const a, const b => a == b
  | equals p, equals q => p == q
  | children p, children q => p == q
  | members s, members t => s == t
  | glob p, glob q => (Glob.Pattern.ofGlob p).source == (Glob.Pattern.ofGlob q).source
  | inverse f, inverse g => same f g
  | aggregate m fs, aggregate n gs => m == n && sameAll fs gs
  | rules rs a, rules ss b => sameRules rs ss && a == b
  | probe n a, probe m b => n == m && a == b
  | _, _ => false
/-- Whether two lists of filters agree place by place. -/
def sameAll : List Filter → List Filter → Bool
  | [], [] => true
  | f :: fs, g :: gs => same f g && sameAll fs gs
  | _, _ => false
/-- Whether two lists of rules agree place by place. -/
def sameRules : List (Filter × Bool) → List (Filter × Bool) → Bool
  | [], [] => true
  | (f, a) :: rs, (g, b) :: ss => same f g && a == b && sameRules rs ss
  | _, _ => false
end

end Filter

end ModulePath
