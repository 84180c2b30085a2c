import ModulePath.Filter.Basic

/-!
# Consulted leaves

A filter asks its delegates from left to right and stops as soon as the answer is decided.
`Filter.consulted` lists the leaves that are asked on the way to the answer, in order.
-/

set_option autoImplicit false

namespace ModulePath.Filter

mutual
/-- The leaves that a filter asks about a path, in order. -/
def consulted (path : String) : Filter → List Filter
  | inverse delegate => consulted path delegate
  | aggregate mode delegates => consultedUntil path mode.dominant delegates
  | rules rs _ => consultedRules path rs
  | leaf => [leaf]
/-- The leaves asked until a filter gives the dominant answer. -/
def consultedUntil (path : String) (dominant : Bool) : List Filter → List Filter
  | [] => []
  | f :: fs =>
    consulted path f ++ if accepts path f == dominant then [] else consultedUntil path dominant fs
/-- The leaves asked until a rule applies. -/
def consultedRules (path : String) : List (Filter × Bool) → List Filter
  | [] => []
  | (f, _) :: rs => consulted path f ++ if accepts path f then [] else consultedRules path rs
end

/-- The name of a probe. -/
def probeName? : Filter → Option String
  | probe name _ => some name
  | _ => none

/-- The names of the probes that a filter asks about a path, in order. -/
def consultedProbes (path : String) (f : Filter) : List String :=
  (f.consulted path).filterMap probeName?

end ModulePath.Filter
