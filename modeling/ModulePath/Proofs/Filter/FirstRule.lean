import ModulePath.Filter.WellKnown

/-!
# Rule lists and descendants

A rule list answers with its first rule that applies. `firstRule_append` says how two lists put
together answer, and `accepts_create` that the simplification of a list without rules keeps the
answer. `AtOrBelow` is the set of paths that a directory filter is meant for: the directory and its
strict descendants.
-/

set_option autoImplicit false

namespace ModulePath

/-- A text goes on after another one: it begins with it and is longer. -/
def GoesOnAfter (start path : String) : Prop :=
  start.toList <+: path.toList ∧ start.length < path.length

/-- A path is a strict descendant of a directory. -/
def Below (dir path : String) : Prop := GoesOnAfter (dir ++ "/") path

/-- A path is a directory or a strict descendant of it. -/
def AtOrBelow (dir path : String) : Prop := path = dir ∨ Below dir path

instance (start path : String) : Decidable (GoesOnAfter start path) :=
  inferInstanceAs (Decidable (_ ∧ _))

instance (dir path : String) : Decidable (Below dir path) :=
  inferInstanceAs (Decidable (GoesOnAfter _ _))

instance (dir path : String) : Decidable (AtOrBelow dir path) :=
  inferInstanceAs (Decidable (_ ∨ _))

namespace Filter

variable {path : String}

/-! ## Descendants -/

/-- A child goes on after its parent. -/
theorem isChild_iff {parent : String} : isChild parent path = true ↔ GoesOnAfter parent path := by
  unfold isChild GoesOnAfter
  rw [Bool.and_eq_true, decide_eq_true_eq, List.isPrefixOf_iff_prefix, and_comm]

theorem accepts_children {parent : String} :
    (children parent).accepts path = true ↔ GoesOnAfter parent path := by
  rw [accepts, isChild_iff]

theorem accepts_equals {p : String} : (equals p).accepts path = true ↔ path = p := by
  rw [accepts, beq_iff_eq]

theorem withSeparator_of_eq {dir : String} (h : dir.toList.getLast? = some '/') :
    withSeparator dir = dir :=
  if_pos (beq_iff_eq.2 h)

theorem withSeparator_of_ne {dir : String} (h : dir.toList.getLast? ≠ some '/') :
    withSeparator dir = dir ++ "/" :=
  if_neg (mt beq_iff_eq.1 h)

/-- A path without a separator at its end gets one. -/
theorem accepts_childOf {dir : String} (h : dir.toList.getLast? ≠ some '/') :
    (childOf dir).accepts path = true ↔ Below dir path := by
  rw [childOf, withSeparator_of_ne h, accepts_children, Below]

/-- A directory and all that is in it. -/
theorem accepts_selfOrChildOf {dir : String} (h : dir.toList.getLast? ≠ some '/') :
    (selfOrChildOf dir).accepts path = true ↔ AtOrBelow dir path := by
  have hself : (equals dir).accepts path = true ↔ path = dir := accepts_equals
  have hbelow : (childOf dir).accepts path = true ↔ Below dir path := accepts_childOf h
  simp [selfOrChildOf, anyOf, accepts, decideFirst, Mode.dominant, AtOrBelow, ← hbelow]

/-! ## The first rule -/

/-- Later rules stand for the default of the earlier ones. -/
theorem firstRule_append (rs ss : List (Filter × Bool)) (d : Bool) :
    firstRule path (rs ++ ss) d = firstRule path rs (firstRule path ss d) := by
  induction rs with
  | nil => rw [List.nil_append, firstRule]
  | cons r rs ih => rw [List.cons_append, firstRule, firstRule, ih]

/-- A builder without rules creates a constant, which answers as the empty rule list does. -/
theorem accepts_create (b : Builder) :
    b.create.accepts path = firstRule path b.rules b.default := by
  unfold Builder.create
  cases hrules : b.rules with
  | nil => simp [accepts, firstRule]
  | cons r rs => simp [accepts]

/-! ## Rules around the directory that describes a module -/

theorem getLast?_metaInf : metaInf.toList.getLast? ≠ some '/' := by decide

theorem getLast?_metaInfServices : metaInfServices.toList.getLast? ≠ some '/' := by decide

/-- The rule that hides a directory leaves everything else to the default. -/
theorem firstRule_hideMetaInf (d : Bool) :
    firstRule path hideMetaInf d = if AtOrBelow metaInf path then false else d := by
  have hself : (equals metaInf).accepts path = true ↔ path = metaInf := accepts_equals
  have hbelow : (childOf metaInf).accepts path = true ↔ Below metaInf path :=
    accepts_childOf getLast?_metaInf
  simp only [hideMetaInf, metaInfChildren, metaInfItself, firstRule, AtOrBelow, ← hself, ← hbelow]
  cases (childOf metaInf).accepts path <;> cases (equals metaInf).accepts path <;> rfl

/-- The rule that shows the services leaves everything else to the default. -/
theorem firstRule_services (d : Bool) :
    firstRule path [(services, true)] d = if AtOrBelow metaInfServices path then true else d := by
  have hservices : (selfOrChildOf metaInfServices).accepts path = true ↔
      AtOrBelow metaInfServices path := accepts_selfOrChildOf getLast?_metaInfServices
  rw [services, firstRule, firstRule]
  by_cases h : AtOrBelow metaInfServices path
  · rw [if_pos h, if_pos (hservices.2 h)]
  · rw [if_neg h, if_neg (mt hservices.1 h)]

/-- The two rules of the shared filter let through what the one rule of a built list does. -/
theorem firstRule_servicesApart (d : Bool) :
    firstRule path [(equals metaInfServices, true), (childOf metaInfServices, true)] d =
      if AtOrBelow metaInfServices path then true else d := by
  have hself : (equals metaInfServices).accepts path = true ↔ path = metaInfServices :=
    accepts_equals
  have hbelow : (childOf metaInfServices).accepts path = true ↔ Below metaInfServices path :=
    accepts_childOf getLast?_metaInfServices
  simp only [firstRule, AtOrBelow, ← hself, ← hbelow]
  cases (equals metaInfServices).accepts path <;>
    cases (childOf metaInfServices).accepts path <;> rfl

/-- Everything but what is at or below the hidden directory is imported. -/
theorem accepts_defaultImport :
    defaultImport.accepts path = if AtOrBelow metaInf path then false else true := by
  rw [defaultImport, accepts_create]
  exact firstRule_hideMetaInf true

/-- Services are imported out of the hidden directory. -/
theorem accepts_defaultImportWithServices :
    defaultImportWithServices.accepts path =
      if AtOrBelow metaInfServices path then true
      else if AtOrBelow metaInf path then false else true := by
  have hrules : firstRule path ([(equals metaInfServices, true), (childOf metaInfServices, true)] ++
      hideMetaInf) true = _ := firstRule_append _ _ true
  rw [firstRule_servicesApart, firstRule_hideMetaInf] at hrules
  rw [defaultImportWithServices, accepts_create]
  exact hrules

end Filter

end ModulePath
