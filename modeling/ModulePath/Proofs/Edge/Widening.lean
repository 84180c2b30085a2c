import ModulePath.Proofs.Edge.Decision

/-!
# Wider dependencies

A dependency is wider than another one with the same rules if it carries services at least as far
and passes on paths without a rule at least as often (`ModuleDependency.Widens`). A list in which
the first rule decides need not grow with the rules that are put into it: a rule in front of others
can take a path away. The rules for services and for `META-INF` stand where they cannot. On the way
in the rule for services comes first and only lets through; on the way out it comes after the rules
of the dependency, and so does all that hides `META-INF`.

So a wider dependency lets through what a narrower one does, in both directions. The single steps
are exact: each one is told by the paths that it adds (`visible_imports_iff`,
`reexported_exports_iff`, `reexport_exports_iff`), and it adds them in one direction only.
-/

set_option autoImplicit false

namespace ModulePath

variable {path : String}

/-! ## Lists of rules -/

/-- A list of rules lets a path through: its first rule that applies includes it, or there is no
such rule and the path passes `otherwise`. -/
def Rule.Lets (rules : List Rule) (path : String) (otherwise : Prop) : Prop :=
  match Rule.first? rules path with
  | some r => r.included = true
  | none => otherwise

namespace Rule

variable {rules : List Rule} {P Q : Prop}

/-- A list without a rule for a path is as wide as what comes after it. -/
theorem Lets.mono (h : Lets rules path P) (hPQ : P → Q) : Lets rules path Q := by
  unfold Lets at h ⊢
  cases hfirst : first? rules path with
  | some r =>
    rw [hfirst] at h
    exact h
  | none =>
    rw [hfirst] at h
    exact hPQ h

/-- What comes after the list in addition counts for the paths without a rule. -/
theorem lets_or_iff :
    Lets rules path (P ∨ Q) ↔ Lets rules path P ∨ (first? rules path = none ∧ Q) := by
  unfold Lets
  cases first? rules path with
  | some r => simp
  | none => simp

theorem getD_first?_iff {b : Bool} :
    ((first? rules path).map included).getD b = true ↔ Lets rules path (b = true) := by
  unfold Lets
  cases first? rules path with
  | some r => exact Iff.rfl
  | none => exact Iff.rfl

end Rule

/-! ## The two directions -/

namespace ModuleDependency

variable {d d' : ModuleDependency}

/-- The import filter of a dependency accepts a path. -/
def Imports (d : ModuleDependency) (path : String) : Prop :=
  (Dependency.onModule d).resolve.importFilter.accepts path = true

/-- The export filter of a dependency accepts a path. -/
def Exports (d : ModuleDependency) (path : String) : Prop :=
  (Dependency.onModule d).resolve.exportFilter.accepts path = true

/-- What is imported, by the treatment of services first and the rules after it. -/
theorem imports_iff :
    d.Imports path ↔
      (d.services ≠ .hidden ∧ AtOrBelow metaInfServices path) ∨
        Rule.Lets d.importRules path ¬AtOrBelow metaInf path := by
  have htable : (Dependency.onModule d).resolve.importFilter.accepts path = _ :=
    d.accepts_importFilter
  have hrest : (if AtOrBelow metaInf path then false else true) = true ↔
      ¬AtOrBelow metaInf path := by simp
  rw [Imports, htable]
  by_cases hservices : d.services ≠ .hidden ∧ AtOrBelow metaInfServices path
  · rw [if_pos hservices]
    exact ⟨fun _ => .inl hservices, fun _ => rfl⟩
  · rw [if_neg hservices, Rule.getD_first?_iff, hrest, or_iff_right hservices]

/-- What is exported, by the rules first. -/
theorem exports_iff :
    d.Exports path ↔
      Rule.Lets d.exportRules path
        ((d.services = .reexported ∧ AtOrBelow metaInfServices path) ∨
          (d.reexport = true ∧ ¬AtOrBelow metaInf path)) := by
  have htable : (Dependency.onModule d).resolve.exportFilter.accepts path = _ :=
    accepts_exportFilterOf d.reexport d.exportRules d.services
  have hrest : (if d.services = .reexported ∧ AtOrBelow metaInfServices path then true
      else d.reexport && !decide (AtOrBelow metaInf path)) = true ↔
        (d.services = .reexported ∧ AtOrBelow metaInfServices path) ∨
          (d.reexport = true ∧ ¬AtOrBelow metaInf path) := by
    by_cases h : d.services = .reexported ∧ AtOrBelow metaInfServices path
    · simp [h]
    · simp [h]
  rw [Exports, htable, Rule.getD_first?_iff, hrest]

/-! ## Single steps -/

/-- Services that become visible are added on the way in. -/
theorem visible_imports_iff (d : ModuleDependency) :
    Imports { d with services := .visible } path ↔
      Imports { d with services := .hidden } path ∨ AtOrBelow metaInfServices path := by
  rw [imports_iff, imports_iff]
  simp only [ne_eq, reduceCtorEq, not_false_eq_true, true_and, not_true_eq_false, false_and,
    false_or]
  exact or_comm

theorem visible_exports_iff (d : ModuleDependency) :
    Exports { d with services := .visible } path ↔
      Exports { d with services := .hidden } path := by
  rw [exports_iff, exports_iff]
  simp only [reduceCtorEq, false_and]

theorem reexported_imports_iff (d : ModuleDependency) :
    Imports { d with services := .reexported } path ↔
      Imports { d with services := .visible } path := by
  rw [imports_iff, imports_iff]
  simp only [ne_eq, reduceCtorEq, not_false_eq_true]

/-- Services that are passed on are added on the way out, where no rule says otherwise. -/
theorem reexported_exports_iff (d : ModuleDependency) :
    Exports { d with services := .reexported } path ↔
      Exports { d with services := .visible } path ∨
        (Rule.first? d.exportRules path = none ∧ AtOrBelow metaInfServices path) := by
  rw [exports_iff, exports_iff, ← Rule.lets_or_iff]
  simp only [reduceCtorEq, false_and, false_or, true_and]
  rw [or_comm]

theorem reexport_imports_iff (d : ModuleDependency) :
    Imports { d with reexport := true } path ↔ Imports { d with reexport := false } path := by
  rw [imports_iff, imports_iff]

/-- What has no rule is added on the way out, except for `META-INF`. -/
theorem reexport_exports_iff (d : ModuleDependency) :
    Exports { d with reexport := true } path ↔
      Exports { d with reexport := false } path ∨
        (Rule.first? d.exportRules path = none ∧ ¬AtOrBelow metaInf path) := by
  rw [exports_iff, exports_iff, ← Rule.lets_or_iff]
  simp only [Bool.false_eq_true, false_and, or_false, true_and]

end ModuleDependency

/-! ## Any widening -/

/-- How far services are carried: not at all, in, or in and out again. -/
def Services.reach : Services → Nat
  | hidden => 0
  | visible => 1
  | reexported => 2

/-- Only hidden services do not reach the module itself. -/
theorem Services.reach_pos_iff {s : Services} : 0 < s.reach ↔ s ≠ .hidden := by
  cases s with
  | hidden => decide
  | visible => decide
  | reexported => decide

/-- Only services that are exported again reach beyond the module. -/
theorem Services.two_le_reach_iff {s : Services} : 2 ≤ s.reach ↔ s = .reexported := by
  cases s with
  | hidden => decide
  | visible => decide
  | reexported => decide

namespace ModuleDependency

variable {d d' : ModuleDependency}

/-- A dependency is widened to another one with the same rules. -/
structure Widens (d d' : ModuleDependency) : Prop where
  importRules : d'.importRules = d.importRules
  exportRules : d'.exportRules = d.exportRules
  services : d.services.reach ≤ d'.services.reach
  reexport : d.reexport = true → d'.reexport = true

/-- A wider dependency imports no less. -/
theorem Widens.imports (h : d.Widens d') (hpath : d.Imports path) : d'.Imports path := by
  rw [imports_iff] at hpath ⊢
  rw [h.importRules]
  rcases hpath with ⟨hservices, hbelow⟩ | hrules
  · have hreach : 0 < d'.services.reach :=
      Nat.lt_of_lt_of_le (Services.reach_pos_iff.2 hservices) h.services
    exact .inl ⟨Services.reach_pos_iff.1 hreach, hbelow⟩
  · exact .inr hrules

/-- A wider dependency exports no less. -/
theorem Widens.exports (h : d.Widens d') (hpath : d.Exports path) : d'.Exports path := by
  rw [exports_iff] at hpath ⊢
  rw [h.exportRules]
  apply hpath.mono
  rintro (⟨hservices, hbelow⟩ | ⟨hreexport, houtside⟩)
  · have hreach : 2 ≤ d'.services.reach :=
      Nat.le_trans (Services.two_le_reach_iff.2 hservices) h.services
    exact .inl ⟨Services.two_le_reach_iff.1 hreach, hbelow⟩
  · exact .inr ⟨h.reexport hreexport, houtside⟩

end ModuleDependency

open ModuleDependency in
/-- A wider dependency lets through all that a narrower one does. Services that become visible
change what is seen and services that are passed on change what is passed on, each for the service
declarations and their directory only. Passing on the paths without a rule changes nothing for
`META-INF` and what is in it. -/
theorem widening_opens :
    (∀ {d d' : ModuleDependency}, d.Widens d' → ∀ path : String,
      (d.Imports path → d'.Imports path) ∧ (d.Exports path → d'.Exports path) ∧
        ((Dependency.onModule d).resolve.exports path = true →
          (Dependency.onModule d').resolve.exports path = true)) ∧
    (∀ (d : ModuleDependency) (path : String),
      (Exports { d with services := .visible } path ↔ Exports { d with services := .hidden } path) ∧
        (¬AtOrBelow metaInfServices path →
          (Imports { d with services := .visible } path ↔
            Imports { d with services := .hidden } path))) ∧
    (∀ (d : ModuleDependency) (path : String),
      (Imports { d with services := .reexported } path ↔
          Imports { d with services := .visible } path) ∧
        (¬AtOrBelow metaInfServices path →
          (Exports { d with services := .reexported } path ↔
            Exports { d with services := .visible } path))) ∧
    (∀ (d : ModuleDependency) (path : String),
      (Imports { d with reexport := true } path ↔ Imports { d with reexport := false } path) ∧
        (AtOrBelow metaInf path →
          (Exports { d with reexport := true } path ↔
            Exports { d with reexport := false } path))) := by
  refine ⟨?_, ?_, ?_, ?_⟩
  · intro d d' h path
    refine ⟨h.imports, h.exports, ?_⟩
    intro hexports
    -- what is passed on through the edge is also seen through it
    obtain ⟨hin, hout⟩ := Bool.and_eq_true_iff.1 hexports
    have hin' : d'.Imports path := h.imports hin
    have hout' : d'.Exports path := h.exports hout
    exact Bool.and_eq_true_iff.2 ⟨hin', hout'⟩
  · intro d path
    refine ⟨visible_exports_iff d, ?_⟩
    intro hoff
    rw [visible_imports_iff, or_iff_left hoff]
  · intro d path
    refine ⟨reexported_imports_iff d, ?_⟩
    intro hoff
    rw [reexported_exports_iff, or_iff_left (mt And.right hoff)]
  · intro d path
    refine ⟨reexport_imports_iff d, ?_⟩
    intro hbelow
    rw [reexport_exports_iff, or_iff_left]
    rintro ⟨-, houtside⟩
    exact houtside hbelow

/-- A dependency that lets one file of `META-INF` through and keeps a directory back. -/
def sampleNarrow : ModuleDependency where
  target := "m"
  services := .visible
  importRules := [⟨true, .path "META-INF/INDEX"⟩]
  exportRules := [⟨false, .path "internal/"⟩, ⟨true, .path "META-INF/INDEX"⟩]

/-- The same dependency, passing on services and what has no rule. -/
def sampleWide : ModuleDependency :=
  { sampleNarrow with services := .reexported, reexport := true }

/-- The file goes on to be let through, the directory to be kept back, and all else is added. -/
theorem exports_sampleWide :
    sampleNarrow.Widens sampleWide ∧ sampleNarrow.Exports "META-INF/INDEX" ∧
      sampleWide.Imports "META-INF/INDEX" ∧ sampleWide.Exports "META-INF/INDEX" ∧
        ¬sampleNarrow.Exports "a/b" ∧ sampleWide.Exports "a/b" ∧
          ¬sampleWide.Exports "internal/b" := by
  have hwidens : sampleNarrow.Widens sampleWide := ⟨rfl, rfl, by decide, nofun⟩
  have hin : sampleNarrow.Imports "META-INF/INDEX" := rfl
  have hout : sampleNarrow.Exports "META-INF/INDEX" := rfl
  obtain ⟨hmono, -, -, -⟩ := widening_opens
  obtain ⟨himports, hexports, -⟩ := hmono hwidens "META-INF/INDEX"
  exact ⟨hwidens, hout, himports hin, hexports hout, nofun, rfl, nofun⟩

end ModulePath
