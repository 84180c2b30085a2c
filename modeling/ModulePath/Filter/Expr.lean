import ModulePath.Filter.Checked
import ModulePath.Filter.WellKnown

/-!
# Filter expressions

A filter written as an expression over the ways to make one. `Expr.build` makes the filter from the
inside out and from left to right; the first argument that does not fit ends it.
-/

set_option autoImplicit false

namespace ModulePath.Filter

/-- The filters that go by a name. -/
inductive WellKnown where
  | defaultImport
  | defaultImportWithServices
  | metaInf
  | metaInfChildren
  | services
  | withoutMetaInf
deriving DecidableEq

/-- The filter of a name. -/
def WellKnown.filter : WellKnown → Filter
  | .defaultImport => Filter.defaultImport
  | .defaultImportWithServices => Filter.defaultImportWithServices
  | .metaInf => Filter.metaInfItself
  | .metaInfChildren => Filter.metaInfChildren
  | .services => Filter.services
  | .withoutMetaInf => Filter.withoutMetaInfItself

/-- How the delegates of an aggregate are combined. -/
inductive Combine where
  | any
  | all
  | none
deriving DecidableEq

/-- The aggregate of delegates. -/
def Combine.build? (c : Combine) (delegates : List Operand) : Outcome Error Filter :=
  match c with
  | .any => aggregate? .any delegates
  | .all => aggregate? .all delegates
  | .none => (aggregate? .any delegates).map negate

/-- A filter expression. -/
inductive Expr where
  /-- A piece of data in the place of a filter. -/
  | value (v : Value)
  | const (answer : Bool)
  | wellKnown (name : WellKnown)
  | equals (path : Value)
  | children (parent : Value)
  | childOf (path : Value)
  | selfOrChildOf (path : Value)
  | glob (pattern : Value)
  | oneOf (paths : Value)
  | negate (delegate : Expr)
  | inverse (delegate : Expr)
  /-- An aggregate of several arguments. -/
  | combine (mode : Combine) (delegates : List Expr)
  /-- An aggregate of one list. -/
  | combineList (mode : Combine) (delegates : List Expr)
  | rules (default : Value) (rules : List (Expr × Value))
  | probe (name : String) (answer : Bool)
deriving Inhabited

namespace Expr

mutual
/-- What an expression makes. -/
def build : Expr → Outcome Error Operand
  | value v => .ok (.value v)
  | const answer => .ok (.filter (.const answer))
  | wellKnown name => .ok (.filter name.filter)
  | equals path => (equals? path).map .filter
  | children parent => (children? parent).map .filter
  | childOf path => (childOf? path).map .filter
  | selfOrChildOf path => (selfOrChildOf? path).map .filter
  | glob pattern => (glob? pattern).map .filter
  | oneOf paths => (oneOf? paths).map .filter
  | negate delegate => do return .filter (← negate? (← build delegate))
  | inverse delegate => do return .filter (← inverse? (← build delegate))
  | combine mode delegates => do return .filter (← mode.build? (← spread (← buildAll delegates)))
  | combineList mode delegates => do return .filter (← mode.build? (← buildAll delegates))
  | rules default rs => do return .filter (← buildRules (Builder.new default.truthy) rs).create
  | probe name answer => .ok (.filter (.probe name answer))
/-- What the expressions of a list make. -/
def buildAll : List Expr → Outcome Error (List Operand)
  | [] => .ok []
  | e :: es => do
    let operand ← build e
    return operand :: (← buildAll es)
/-- The builder with the rules of a list added. -/
def buildRules (b : Builder) : List (Expr × Value) → Outcome Error Builder
  | [] => .ok b
  | (e, answer) :: rs => do
    let f ← requireFilter "filter" (← build e)
    buildRules (b.add f answer.truthy) rs
end

end Expr

end ModulePath.Filter
