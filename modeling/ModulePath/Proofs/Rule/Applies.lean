import ModulePath.Proofs.Filter.FirstRule
import ModulePath.Rule.Basic

/-!
# What a rule applies to

`Rule.Applies` says it by the kind of the rule: membership for a set, matching for a path with a
wildcard, strict descendants for a path that ends in a separator, and equality for any other path.
The filter of a rule accepts exactly these paths (`accepts_filter_iff`), so a list of rules answers
with the first of them that applies (`firstRule_rules`).
-/

set_option autoImplicit false

namespace ModulePath.Rule

/-- A rule applies to a path. -/
def Applies (r : Rule) (path : String) : Prop :=
  match r.selector with
  | .set members => path ∈ members
  | .path p =>
    if '*' ∈ p.toList ∨ '?' ∈ p.toList then (Filter.glob p).accepts path = true
    else if p.toList.getLast? = some '/' then GoesOnAfter p path
    else path = p

variable {path : String}

/-- A directory path already ends in the separator that its filter needs. -/
theorem accepts_childOf_terminated {p : String} (h : p.toList.getLast? = some '/') :
    (Filter.childOf p).accepts path = true ↔ GoesOnAfter p path := by
  rw [Filter.childOf, Filter.withSeparator_of_eq h, Filter.accepts_children]

/-- A text is a glob if it has a star or a question mark. -/
theorem isGlob_iff {p : String} :
    Glob.isGlob p = true ↔ '*' ∈ p.toList ∨ '?' ∈ p.toList := by
  unfold Glob.isGlob
  rw [Bool.or_eq_true, List.contains_iff_mem, List.contains_iff_mem]

/-- The filter of a rule accepts the paths that the rule applies to. -/
theorem accepts_filter_iff {r : Rule} : r.filter.accepts path = true ↔ r.Applies path := by
  obtain ⟨included, selector⟩ := r
  cases selector with
  | set members => exact TextSet.contains_iff
  | path p =>
    have hglob : Glob.isGlob p = true ↔ _ := isGlob_iff
    unfold Applies Rule.filter Selector.filter
    by_cases h : '*' ∈ p.toList ∨ '?' ∈ p.toList
    · simp only [if_pos (hglob.2 h), if_pos h]
    · simp only [if_neg (mt hglob.1 h), if_neg h]
      by_cases hdir : p.toList.getLast? = some '/'
      · simp only [if_pos (beq_iff_eq.2 hdir), if_pos hdir]
        exact accepts_childOf_terminated hdir
      · simp only [if_neg (mt beq_iff_eq.1 hdir), if_neg hdir]
        exact Filter.accepts_equals

instance (r : Rule) (path : String) : Decidable (r.Applies path) :=
  decidable_of_iff (r.filter.accepts path = true) accepts_filter_iff

/-! ## The first rule of a list -/

/-- The first rule of a list that applies. -/
def first? (rules : List Rule) (path : String) : Option Rule :=
  rules.find? fun r => decide (r.Applies path)

/-- Rules as a rule list: the first one that applies answers, by induction on the rules. -/
theorem firstRule_rules (rules : List Rule) (d : Bool) :
    Filter.firstRule path (rules.map toFilterRule) d =
      ((first? rules path).map Rule.included).getD d := by
  induction rules with
  | nil => rfl
  | cons r rules ih =>
    rw [List.map_cons, toFilterRule, Filter.firstRule, first?, List.find?_cons]
    by_cases h : r.Applies path
    · rw [if_pos (accepts_filter_iff.2 h), decide_eq_true h]
      rfl
    · rw [if_neg (mt accepts_filter_iff.1 h), decide_eq_false h, ih]
      rfl

end ModulePath.Rule
