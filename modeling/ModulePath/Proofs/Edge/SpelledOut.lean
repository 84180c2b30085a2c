import ModulePath.Proofs.Edge.Decision

/-!
# Sets spelled out

A rule for a set can be written as one rule for each member, if no member would be read as a glob
or a directory when it stands alone (`Rule.IsExact`). `Rule.SpellsOut` replaces one set rule of a
list, at any place, by the rules for its members in any order; for the empty set the rule goes.

Rules for exact paths decide together what the set rule decides (`decision?_oneByOne_append`), and
the rules around them are asked before and after as they were, so the list decides every path as
before (`SpellsOut.decision?_eq`). The filters of an edge depend on a list of rules only through
its decisions, also where a list that became empty makes way for a shared filter or for a constant
(`spellsOut_keeps_answers`).
-/

set_option autoImplicit false

namespace ModulePath

variable {path : String}

namespace Rule

/-- A path that stands for itself when it is the path of a rule: it holds no wildcard and does not
end in a separator. -/
def IsExact (p : String) : Prop :=
  ¬('*' ∈ p.toList ∨ '?' ∈ p.toList) ∧ p.toList.getLast? ≠ some '/'

instance (p : String) : Decidable (IsExact p) :=
  inferInstanceAs (Decidable (_ ∧ _))

/-- The rules that include, or exclude, some paths one by one. -/
def oneByOne (included : Bool) (paths : List String) : List Rule :=
  paths.map fun p => ⟨included, .path p⟩

/-- One set rule of a list is replaced by rules for its members. -/
inductive SpellsOut : List Rule → List Rule → Prop
  | intro (before after : List Rule) (included : Bool) {members : TextSet} {paths : List String}
    (horder : paths.Perm members.elements) (hexact : ∀ p ∈ members, IsExact p) :
    SpellsOut (before ++ ⟨included, .set members⟩ :: after)
      (before ++ (oneByOne included paths ++ after))

/-! ## What a list decides -/

/-- What a list of rules says about a path, if any of them applies. -/
def decision? (rules : List Rule) (path : String) : Option Bool :=
  (first? rules path).map Rule.included

theorem decision?_cons (r : Rule) (rest : List Rule) :
    decision? (r :: rest) path =
      if r.Applies path then some r.included else decision? rest path := by
  rw [decision?, first?, List.find?_cons]
  by_cases h : r.Applies path
  · rw [if_pos h, decide_eq_true h]
    rfl
  · rw [if_neg h, decide_eq_false h]
    rfl

/-- Later rules are asked where the earlier ones say nothing. -/
theorem decision?_append (rules rest : List Rule) :
    decision? (rules ++ rest) path = (decision? rules path).or (decision? rest path) := by
  rw [decision?, first?, List.find?_append, decision?, first?]
  cases rules.find? fun r => decide (r.Applies path) with
  | some r => rfl
  | none => rfl

/-- A rule for an exact path applies to this path only. -/
theorem applies_path_iff {included : Bool} {p : String} (h : IsExact p) :
    (⟨included, .path p⟩ : Rule).Applies path ↔ path = p := by
  obtain ⟨hwildcard, hdirectory⟩ := h
  simp only [Applies, if_neg hwildcard, if_neg hdirectory]

/-- Rules for exact paths decide these paths and leave the others to the rules after them. The
induction is on the paths. -/
theorem decision?_oneByOne_append {included : Bool} {paths : List String} (after : List Rule)
    (h : ∀ p ∈ paths, IsExact p) :
    decision? (oneByOne included paths ++ after) path =
      if path ∈ paths then some included else decision? after path := by
  induction paths with
  | nil => rfl
  | cons p paths ih =>
    have hrest : decision? (oneByOne included paths ++ after) path = _ :=
      ih fun q hq => h q (List.mem_cons_of_mem p hq)
    have happlies : (⟨included, .path p⟩ : Rule).Applies path ↔ path = p :=
      applies_path_iff (h p List.mem_cons_self)
    rw [oneByOne, List.map_cons, List.cons_append, decision?_cons]
    by_cases hp : path = p
    · rw [if_pos (happlies.2 hp), if_pos (List.mem_cons.2 (.inl hp))]
    · rw [if_neg (mt happlies.1 hp), ← oneByOne, hrest]
      simp only [List.mem_cons, hp, false_or]

/-- A list decides every path as it did before one of its sets was spelled out. -/
theorem SpellsOut.decision?_eq {rules rules' : List Rule} (h : SpellsOut rules rules')
    (path : String) : decision? rules' path = decision? rules path := by
  cases h with
  | @intro before after included members paths horder hexact =>
    have hexact' : ∀ p ∈ paths, IsExact p := fun p hp => hexact p (horder.mem_iff.1 hp)
    have hset : (⟨included, .set members⟩ : Rule).Applies path ↔ path ∈ paths :=
      horder.mem_iff.symm
    rw [decision?_append before, decision?_append before, decision?_cons,
      decision?_oneByOne_append after hexact']
    simp only [hset]

end Rule

/-! ## What an edge lets through -/

/-- One set rule of a dependency is replaced by rules for its members. -/
inductive Dependency.SpellsOut : Dependency → Dependency → Prop
  | imports (d : ModuleDependency) {rules : List Rule} (h : Rule.SpellsOut d.importRules rules) :
    SpellsOut (.onModule d) (.onModule { d with importRules := rules })
  | exports (d : ModuleDependency) {rules : List Rule} (h : Rule.SpellsOut d.exportRules rules) :
    SpellsOut (.onModule d) (.onModule { d with exportRules := rules })
  | platformExports (d : PlatformDependency) {rules : List Rule}
    (h : Rule.SpellsOut d.exportRules rules) :
    SpellsOut (.onPlatform d) (.onPlatform { d with exportRules := rules })

/-- An import filter depends on the rules through what they decide. -/
theorem ModuleDependency.accepts_importFilter_congr {d : ModuleDependency} {rules : List Rule}
    (h : Rule.decision? rules path = Rule.decision? d.importRules path) :
    (importFilter { d with importRules := rules }).accepts path = d.importFilter.accepts path := by
  rw [Rule.decision?, Rule.decision?] at h
  rw [accepts_importFilter, accepts_importFilter, h]

/-- So does an export filter. -/
theorem accepts_exportFilterOf_congr {reexport : Bool} {rules rules' : List Rule} {s : Services}
    (h : Rule.decision? rules' path = Rule.decision? rules path) :
    (exportFilterOf reexport rules' s).accepts path =
      (exportFilterOf reexport rules s).accepts path := by
  rw [Rule.decision?, Rule.decision?] at h
  rw [accepts_exportFilterOf, accepts_exportFilterOf, h]

theorem Descriptor.accepts_exportFilter_congr {d : Descriptor} {rules : List Rule}
    (h : Rule.decision? rules path = Rule.decision? d.exportRules path) :
    (exportFilter { d with exportRules := rules }).accepts path = d.exportFilter.accepts path := by
  rw [Rule.decision?, Rule.decision?] at h
  rw [accepts_exportFilter, accepts_exportFilter, h]

/-- Spelling out a set changes no answer of an edge, neither of its import filter nor of its export
filter, whether the edge leads to another module, to the platform or to the module itself. -/
theorem spellsOut_keeps_answers :
    (∀ {d d' : Dependency}, d.SpellsOut d' → ∀ path : String,
      d'.resolve.importFilter.accepts path = d.resolve.importFilter.accepts path ∧
        d'.resolve.exportFilter.accepts path = d.resolve.exportFilter.accepts path) ∧
    (∀ {d : Descriptor} {rules : List Rule}, Rule.SpellsOut d.exportRules rules → ∀ path : String,
      (Descriptor.ownEdge { d with exportRules := rules }).exportFilter.accepts path =
        d.ownEdge.exportFilter.accepts path) := by
  refine ⟨?_, ?_⟩
  · intro d d' h path
    cases h with
    | imports d h =>
      exact ⟨ModuleDependency.accepts_importFilter_congr (h.decision?_eq path), rfl⟩
    | exports d h => exact ⟨rfl, accepts_exportFilterOf_congr (h.decision?_eq path)⟩
    | platformExports d h => exact ⟨rfl, accepts_exportFilterOf_congr (h.decision?_eq path)⟩
  · intro d rules h path
    exact Descriptor.accepts_exportFilter_congr (h.decision?_eq path)

/-- A dependency with a rule for no path on the way in, and one for two paths on the way out. -/
def sampleSets : ModuleDependency where
  target := "m"
  services := .visible
  importRules := [⟨false, .set .empty⟩]
  exportRules := [⟨false, .path "a/"⟩, ⟨true, .set (.ofList ["b", "a/c"])⟩, ⟨false, .path "b"⟩]

/-- The rules for what it exports, with the two paths in another order than that of the set. -/
def sampleSpelled : List Rule :=
  [⟨false, .path "a/"⟩, ⟨true, .path "b"⟩, ⟨true, .path "a/c"⟩, ⟨false, .path "b"⟩]

/-- Without the rule for no path the shared filter takes over, which is another filter with the same
answers. The two paths are decided alike, one of them by a rule before. -/
theorem answers_sampleSets :
    Dependency.SpellsOut (.onModule sampleSets) (.onModule { sampleSets with importRules := [] }) ∧
      Rule.SpellsOut sampleSets.exportRules sampleSpelled ∧
      sampleSets.importFilter.same Filter.defaultImportWithServices = false ∧
      Filter.defaultImportWithServices.accepts "META-INF/services/s" =
        sampleSets.importFilter.accepts "META-INF/services/s" ∧
      (Descriptor.ownEdge ⟨"m", sampleSpelled, []⟩).exportFilter.accepts "a/c" =
        (Descriptor.ownEdge ⟨"m", sampleSets.exportRules, []⟩).exportFilter.accepts "a/c" := by
  have hempty : Rule.SpellsOut sampleSets.importRules [] :=
    .intro [] [] false (.refl _) fun _ hp => absurd hp TextSet.not_mem_empty
  have himports : Dependency.SpellsOut (.onModule sampleSets)
      (.onModule { sampleSets with importRules := [] }) := .imports sampleSets hempty
  have hexact : ∀ p ∈ (TextSet.ofList ["b", "a/c"]).elements, Rule.IsExact p := by decide
  have horder : ["b", "a/c"].Perm (TextSet.ofList ["b", "a/c"]).elements := .swap "a/c" "b" []
  have hspelled : Rule.SpellsOut sampleSets.exportRules sampleSpelled :=
    .intro [⟨false, .path "a/"⟩] [⟨false, .path "b"⟩] true horder hexact
  obtain ⟨hedges, hown⟩ := spellsOut_keeps_answers
  refine ⟨himports, hspelled, by decide, ?_, ?_⟩
  · exact (hedges himports "META-INF/services/s").1
  · exact @hown ⟨"m", sampleSets.exportRules, []⟩ sampleSpelled hspelled "a/c"

end ModulePath
