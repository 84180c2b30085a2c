import ModulePath.Filter.Basic

/-!
# What a filter is made from

The delegates of a filter are the filters right below it, those of its rules included. A filter
occurs in another one if it is reached from there by delegates (`Occurs`). Filters are well-founded
in this way: what holds of a filter when it holds of its delegates holds of every filter
(`Filter.induct`).
-/

set_option autoImplicit false

namespace ModulePath.Filter

variable {f g : Filter}

/-- The filters that a filter is made from, in order. -/
def delegates : Filter → List Filter
  | inverse delegate => [delegate]
  | aggregate _ fs => fs
  | rules rs _ => rs.map Prod.fst
  | _ => []

/-- Whether a filter decides by itself. An aggregate or a rule list does not, even if it is
empty. -/
def isLeaf : Filter → Bool
  | inverse _ | aggregate _ _ | rules _ _ => false
  | _ => true

/-- A filter occurs in another one, as the whole of it or somewhere inside. -/
inductive Occurs (g : Filter) : Filter → Prop
  | here : Occurs g g
  | inside {f d : Filter} (hd : d ∈ f.delegates) (h : Occurs g d) : Occurs g f

/-- A leaf asks no other filter. -/
theorem delegates_of_isLeaf (h : f.isLeaf = true) : f.delegates = [] := by
  cases f with
  | inverse | aggregate | rules => cases h
  | const | equals | children | members | glob | probe => rfl

/-- Induction over a filter, with a hypothesis for each of its delegates and for the filter of each
of its rules. -/
@[elab_as_elim]
theorem induct {motive : Filter → Prop} (hconst : ∀ answer, motive (const answer))
    (hequals : ∀ path, motive (equals path)) (hchildren : ∀ parent, motive (children parent))
    (hmembers : ∀ paths, motive (members paths)) (hglob : ∀ pattern, motive (glob pattern))
    (hinverse : ∀ f, motive f → motive (inverse f))
    (haggregate : ∀ mode fs, (∀ f ∈ fs, motive f) → motive (aggregate mode fs))
    (hrules : ∀ rs default, (∀ r ∈ rs, motive r.1) → motive (rules rs default))
    (hprobe : ∀ name answer, motive (probe name answer)) : ∀ f, motive f
  | const answer => hconst answer
  | equals path => hequals path
  | children parent => hchildren parent
  | members paths => hmembers paths
  | glob pattern => hglob pattern
  | inverse f => hinverse f
      (induct hconst hequals hchildren hmembers hglob hinverse haggregate hrules hprobe f)
  | aggregate mode fs => haggregate mode fs fun f hf =>
      -- the membership is there for the termination proof
      have _hmem : f ∈ fs := hf
      induct hconst hequals hchildren hmembers hglob hinverse haggregate hrules hprobe f
  | rules rs default => hrules rs default fun r hr =>
      have _hmem : r ∈ rs := hr
      induct hconst hequals hchildren hmembers hglob hinverse haggregate hrules hprobe r.1
  | probe name answer => hprobe name answer
  termination_by f => sizeOf f
  decreasing_by
    · simp only [inverse.sizeOf_spec]
      omega
    · have hlt := List.sizeOf_lt_of_mem hf
      simp only [aggregate.sizeOf_spec]
      omega
    · have hlt := List.sizeOf_lt_of_mem hr
      have hfst : sizeOf r.1 < sizeOf r := by
        obtain ⟨f, answer⟩ := r
        simp only [Prod.mk.sizeOf_spec]
        omega
      simp only [rules.sizeOf_spec]
      omega

end ModulePath.Filter
