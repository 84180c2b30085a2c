import ModulePath.Edge.Resolve
import ModulePath.Proofs.Rule.Applies

/-!
# What an edge lets through

The import filter and the export filter of an edge are built in several ways: a shared filter when
there are no import rules, a list of the dependency's rules with rules for services and for
`META-INF` around it, or a constant. Each filter answers by one table.

On the way in, services come before the rules of the dependency (`importFilter_accepts_eq`). On the
way out the rules come first, then services, then what the edge does with all other paths
(`exportFilter_accepts_iff`).
-/

set_option autoImplicit false

namespace ModulePath

variable {path : String}

/-! ## The way in -/

/-- A rule for services at the head of a list, which is there under a condition. -/
theorem firstRule_servicesIf (P : Prop) [Decidable P] (d : Bool) :
    Filter.firstRule path (if P then [(Filter.services, true)] else []) d =
      if P ∧ AtOrBelow metaInfServices path then true else d := by
  by_cases hP : P
  · rw [if_pos hP, Filter.firstRule_services]
    simp only [hP, true_and]
  · have hno : ¬(P ∧ AtOrBelow metaInfServices path) := fun hc => hP hc.1
    rw [if_neg hP, if_neg hno, Filter.firstRule]

/-- The shared filters, which stand for no import rules. -/
theorem accepts_sharedImport (s : Services) :
    (if s = .hidden then Filter.defaultImport else Filter.defaultImportWithServices).accepts path =
      if s ≠ .hidden ∧ AtOrBelow metaInfServices path then true
      else if AtOrBelow metaInf path then false else true := by
  by_cases hs : s = .hidden
  · have hno : ¬(s ≠ .hidden ∧ AtOrBelow metaInfServices path) := fun hc => hc.1 hs
    rw [if_pos hs, if_neg hno, Filter.accepts_defaultImport]
  · rw [if_neg hs, Filter.accepts_defaultImportWithServices]
    simp only [ne_eq, hs, not_false_eq_true, true_and]

/-- Both ways to build an import filter give the same table. -/
theorem ModuleDependency.accepts_importFilter (d : ModuleDependency) :
    d.importFilter.accepts path =
      if d.services ≠ .hidden ∧ AtOrBelow metaInfServices path then true
      else ((Rule.first? d.importRules path).map Rule.included).getD
        (if AtOrBelow metaInf path then false else true) := by
  unfold importFilter
  cases hrules : d.importRules with
  | nil => exact accepts_sharedImport d.services
  | cons r rules =>
    rw [List.isEmpty_cons, if_neg Bool.false_ne_true, Filter.accepts_create]
    simp only [Filter.Builder.addAll, Filter.Builder.new, List.nil_append]
    -- the list has the rule for services in the other branch than `firstRule_servicesIf`
    have hservices (b : Bool) :
        Filter.firstRule path
            (if d.services = .hidden then [] else [(Filter.services, true)]) b =
          if d.services ≠ .hidden ∧ AtOrBelow metaInfServices path then true else b := by
      rw [← ite_not]
      exact firstRule_servicesIf (d.services ≠ .hidden) b
    rw [Filter.firstRule_append, Filter.firstRule_append, hservices,
      Filter.firstRule_hideMetaInf, Rule.firstRule_rules]

/-- What a module sees through a dependency: services if they are carried across, then what the
first import rule that applies says, and without one everything outside of `META-INF`. -/
theorem importFilter_accepts_eq (d : ModuleDependency) (path : String) :
    (Dependency.onModule d).resolve.importFilter.accepts path =
      if d.services ≠ .hidden ∧ AtOrBelow metaInfServices path then true
      else
        match d.importRules.find? fun r => decide (r.Applies path) with
        | some r => r.included
        | none => !decide (AtOrBelow metaInf path) := by
  have htable : d.importFilter.accepts path = _ := d.accepts_importFilter
  rw [Rule.first?] at htable
  rw [Dependency.resolve, htable]
  cases d.importRules.find? fun r => decide (r.Applies path) with
  | some r => rfl
  | none => by_cases h : AtOrBelow metaInf path <;> simp [h]

/-! ## The way out -/

/-- The end of the list: everything outside of `META-INF`, or nothing. -/
theorem firstRule_reexport (reexport : Bool) :
    Filter.firstRule path (if reexport then Filter.hideMetaInf else []) reexport =
      (reexport && !decide (AtOrBelow metaInf path)) := by
  cases reexport with
  | false => rfl
  | true =>
    rw [if_pos rfl, Filter.firstRule_hideMetaInf]
    by_cases h : AtOrBelow metaInf path <;> simp [h]

/-- The first rule that applies decides, then the treatment of services, then whether paths without
a rule are passed on. -/
theorem accepts_exportFilterOf (reexport : Bool) (rules : List Rule) (s : Services) :
    (exportFilterOf reexport rules s).accepts path =
      ((Rule.first? rules path).map Rule.included).getD
        (if s = .reexported ∧ AtOrBelow metaInfServices path then true
          else reexport && !decide (AtOrBelow metaInf path)) := by
  unfold exportFilterOf
  rw [Filter.accepts_create]
  simp only [Filter.Builder.addAll, Filter.Builder.new, List.nil_append]
  rw [Filter.firstRule_append, Filter.firstRule_append, Rule.firstRule_rules,
    firstRule_servicesIf, firstRule_reexport]

/-- A module itself exports whatever no rule of it hides. -/
theorem Descriptor.accepts_exportFilter (d : Descriptor) :
    d.exportFilter.accepts path =
      ((Rule.first? d.exportRules path).map Rule.included).getD true := by
  unfold exportFilter
  rw [Filter.accepts_create]
  exact Rule.firstRule_rules d.exportRules true

/-- A path is passed on by the rules, by the treatment of services, or because paths without a rule
are passed on and this one is outside of `META-INF`. -/
def PassedOn (reexport : Bool) (rules : List Rule) (s : Services) (path : String) : Prop :=
  (∃ r, Rule.first? rules path = some r ∧ r.included = true) ∨
    (Rule.first? rules path = none ∧ s = .reexported ∧ AtOrBelow metaInfServices path) ∨
    (Rule.first? rules path = none ∧ ¬(s = .reexported ∧ AtOrBelow metaInfServices path) ∧
      reexport = true ∧ ¬AtOrBelow metaInf path)

/-- The paths that are passed on, in three ways. -/
theorem accepts_exportFilterOf_iff {reexport : Bool} {rules : List Rule} {s : Services} :
    (exportFilterOf reexport rules s).accepts path = true ↔ PassedOn reexport rules s path := by
  rw [accepts_exportFilterOf]
  unfold PassedOn
  cases Rule.first? rules path with
  | some r => simp
  | none =>
    by_cases h : s = .reexported ∧ AtOrBelow metaInfServices path
    · simp [h]
    · simp [h]

/-- What the three kinds of edges pass on. A rule of the dependency decides also about services,
which on the way in no rule does. -/
theorem exportFilter_accepts_iff :
    (∀ (d : ModuleDependency) (path : String),
      (Dependency.onModule d).resolve.exportFilter.accepts path = true ↔
        PassedOn d.reexport d.exportRules d.services path) ∧
    (∀ (d : PlatformDependency) (path : String),
      (Dependency.onPlatform d).resolve.exportFilter.accepts path = true ↔
        PassedOn d.reexport d.exportRules .hidden path) ∧
    (∀ (d : Descriptor) (path : String),
      d.ownEdge.exportFilter.accepts path = true ↔
        (∃ r, Rule.first? d.exportRules path = some r ∧ r.included = true) ∨
          Rule.first? d.exportRules path = none) ∧
    (∀ (d : ModuleDependency) (path : String) (r : Rule),
      d.services = .reexported → AtOrBelow metaInfServices path →
        Rule.first? d.exportRules path = some r →
          (Dependency.onModule d).resolve.exportFilter.accepts path = r.included ∧
            (Dependency.onModule d).resolve.importFilter.accepts path = true) := by
  refine ⟨fun d path => ?_, fun d path => ?_, fun d path => ?_, fun d path r hs hp hr => ?_⟩
  · exact accepts_exportFilterOf_iff
  · exact accepts_exportFilterOf_iff
  · have htable : d.ownEdge.exportFilter.accepts path = _ := d.accepts_exportFilter
    rw [htable]
    cases Rule.first? d.exportRules path with
    | some r => simp
    | none => simp
  -- on the way out the rule comes first, on the way in the treatment of services
  · have hout : (Dependency.onModule d).resolve.exportFilter.accepts path = _ :=
      accepts_exportFilterOf d.reexport d.exportRules d.services
    have hin : (Dependency.onModule d).resolve.importFilter.accepts path = _ :=
      d.accepts_importFilter
    have hne : d.services ≠ .hidden := by
      rw [hs]
      exact Services.noConfusion
    refine ⟨?_, ?_⟩
    · rw [hout, hr]
      rfl
    · rw [hin, if_pos ⟨hne, hp⟩]

/-- A dependency whose rules exclude the service declarations both ways. -/
def hidingDependency : ModuleDependency :=
  let hide : Rule := ⟨false, .path "META-INF/services/"⟩
  ⟨"m", false, false, .reexported, [hide], [hide]⟩

/-- The declarations are seen and not passed on. -/
theorem hidingDependency_filters :
    hidingDependency.services = .reexported ∧
      AtOrBelow metaInfServices "META-INF/services/s" ∧
      (Dependency.onModule hidingDependency).resolve.exportFilter.accepts
        "META-INF/services/s" = false ∧
      (Dependency.onModule hidingDependency).resolve.importFilter.accepts
        "META-INF/services/s" = true := by
  have hbelow : AtOrBelow metaInfServices "META-INF/services/s" := by decide
  have hrule : Rule.first? hidingDependency.exportRules "META-INF/services/s" =
      some ⟨false, .path "META-INF/services/"⟩ := by decide
  obtain ⟨-, -, -, hcontrast⟩ := exportFilter_accepts_iff
  exact ⟨rfl, hbelow, hcontrast hidingDependency _ _ rfl hbelow hrule⟩

end ModulePath
