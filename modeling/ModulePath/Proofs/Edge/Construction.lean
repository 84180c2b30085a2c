import ModulePath.Edge.Resolve
import ModulePath.Filter.Checked
import ModulePath.Proofs.Cache.Patterns
import ModulePath.Proofs.Descriptor.Declared
import ModulePath.Proofs.Filter.Arguments
import ModulePath.Proofs.Glob.Expression

/-!
# Making edges

Making a filter checks what it is made from: a parent has to end in a separator, the members of a
set have to be texts, a rule list takes nothing but filters, and the pattern of a glob comes from
the pattern cache, for which the source of the pattern has to be compiled. Here the edges of a
descriptor are made with all these checks (`Descriptor.edges?`). None of them fails, whatever the
cache remembers, as long as every source in the notation of expressions can be compiled
(`makes_edges`). So a descriptor that is read has one edge more than it has dependencies, and they
lead where its data declare (`edges_of_ofValue?`).
-/

set_option autoImplicit false

namespace ModulePath

/-! ## Making with a cache at hand -/

/-- Something that is made with the pattern cache at hand. -/
abbrev Making (α : Type) := StateT PatternCache (Outcome Filter.Error) α

/-- From every cache that remembers patterns, `a` is made, and the cache goes on remembering. -/
def Makes {α : Type} (m : Making α) (a : α) : Prop :=
  ∀ c : PatternCache, Cache.Remembers Glob.Pattern.ofGlob c →
    ∃ c', m c = .ok (a, c') ∧ Cache.Remembers Glob.Pattern.ofGlob c'

namespace Makes

variable {α β : Type} {m : Making α} {a : α}

theorem pure (a : α) : Makes (Pure.pure a) a := by
  intro c hc
  exact ⟨c, rfl, hc⟩

/-- What needs no cache. -/
theorem lift {r : Outcome Filter.Error α} (h : r = .ok a) : Makes (StateT.lift r) a := by
  intro c hc
  refine ⟨c, ?_, hc⟩
  rw [h]
  rfl

theorem bind {f : α → Making β} {b : β} (hm : Makes m a) (hf : Makes (f a) b) :
    Makes (m >>= f) b := by
  intro c hc
  obtain ⟨c', hmade, hc'⟩ := hm c hc
  obtain ⟨c'', hnext, hc''⟩ := hf c' hc'
  refine ⟨c'', ?_, hc''⟩
  -- the cache that the first part leaves is the one that the second starts from
  change (m c >>= fun p => f p.1 p.2) = _
  rw [hmade]
  exact hnext

theorem ite {p : Prop} [Decidable p] {m' : Making α} {a' : α} (hm : Makes m a)
    (hm' : Makes m' a') : Makes (if p then m else m') (if p then a else a') := by
  by_cases h : p
  · rwa [if_pos h, if_pos h]
  · rwa [if_neg h, if_neg h]

/-- The members of a list are made in order. -/
theorem mapM {f : α → Making β} {g : α → β} (h : ∀ a, Makes (f a) (g a)) (as : List α) :
    Makes (as.mapM f) (as.map g) := by
  induction as with
  | nil => exact pure []
  | cons a as ih =>
    rw [List.mapM_cons]
    exact (h a).bind (ih.bind (pure _))

end Makes

/-! ## Definitions -/

section Definitions

variable (compiles : String → Bool)

/-- The filter of a glob. Its pattern is looked up, or made anew and stored; its source has to
compile. -/
def Filter.compiled? (glob : String) : Making Filter := fun c =>
  match c.pattern glob with
  | (.ok p, c) => if compiles p.source then .ok (.glob glob, c) else Outcome.fault .value
  | (.error f, _) => Outcome.fault f

/-- The filter of what a selector applies to. -/
def Rule.Selector.filter? : Rule.Selector → Making Filter
  | .set members => StateT.lift (Filter.oneOf? (.set (members.elements.map .str)))
  | .path p =>
    if Glob.isGlob p then Filter.compiled? compiles p
    else if p.toList.getLast? == some '/' then do
      let dir ← StateT.lift (Filter.requireText "path" (.str p))
      StateT.lift (Filter.children? (.str (Filter.withSeparator dir)))
    else StateT.lift (Filter.equals? (.str p))

/-- The filter of what a rule applies to. -/
def Rule.filter? (r : Rule) : Making Filter := r.selector.filter? compiles

/-- Add a rule after the others. -/
def Filter.Builder.add? (b : Builder) (filter : Operand) (answer : Bool) : Making Builder := do
  let f ← StateT.lift (Filter.requireFilter "filter" filter)
  return b.add f answer

/-- Add filters after the others. -/
def Filter.Builder.addFilters? (b : Builder) (rules : List (Filter × Bool)) : Making Builder :=
  rules.foldlM (fun b r => b.add? (.filter r.1) r.2) b

/-- Add the filters of rules after the others. -/
def Filter.Builder.addRules? (b : Builder) (rules : List Rule) : Making Builder :=
  rules.foldlM (fun b r => do b.add? (.filter (← r.filter? compiles)) r.included) b

/-- What a module sees through a dependency on another module. -/
def ModuleDependency.importFilter? (d : ModuleDependency) : Making Filter :=
  if d.importRules.isEmpty then
    return if d.services = .hidden then Filter.defaultImport else Filter.defaultImportWithServices
  else do
    let services := if d.services = .hidden then [] else [(Filter.services, true)]
    let b ← (Filter.Builder.new true).addFilters? services
    let b ← b.addRules? compiles d.importRules
    let b ← b.addFilters? Filter.hideMetaInf
    return b.create

/-- What a module passes on. -/
def exportFilterOf? (reexport : Bool) (rules : List Rule) (services : Services) :
    Making Filter := do
  let services := if services = .reexported then [(Filter.services, true)] else []
  let hidden := if reexport then Filter.hideMetaInf else []
  let b ← (Filter.Builder.new reexport).addRules? compiles rules
  let b ← b.addFilters? services
  let b ← b.addFilters? hidden
  return b.create

/-- The edge of a dependency. -/
def Dependency.resolve? : Dependency → Making Edge
  | .onModule d => do
    let importFilter ← d.importFilter? compiles
    let exportFilter ← exportFilterOf? compiles d.reexport d.exportRules d.services
    return ⟨.onModule d.target d.optional d.services, importFilter, exportFilter⟩
  | .onPlatform d => do
    let exportFilter ← exportFilterOf? compiles d.reexport d.exportRules .hidden
    return ⟨.onPlatform d.paths, Filter.acceptAll, exportFilter⟩

/-- The edge of a module to its own content. -/
def Descriptor.ownEdge? (d : Descriptor) : Making Edge := do
  let b ← (Filter.Builder.new true).addRules? compiles d.exportRules
  return ⟨.own d.name, Filter.acceptAll, b.create⟩

/-- The edges of a module: to its own content first, then to its dependencies in order. -/
def Descriptor.edges? (d : Descriptor) : Making (List Edge) := do
  let own ← d.ownEdge? compiles
  let edges ← d.dependencies.mapM (Dependency.resolve? compiles)
  return own :: edges

/-- Whatever is in the notation of expressions can be compiled. -/
def CompilesExpressions : Prop :=
  ∀ source e, Glob.Expression.ofText? source = some e → compiles source = true

end Definitions

/-! ## Filters -/

variable {compiles : String → Bool}

/-- Every pattern has a source in the notation of expressions. -/
theorem CompilesExpressions.source (h : CompilesExpressions compiles) (p : Glob.Pattern) :
    compiles p.source = true :=
  h p.source p.expression (Glob.ofText?_source p)

/-- A compiled glob is a filter with its pattern. -/
theorem makes_compiled (h : CompilesExpressions compiles) (glob : String) :
    Makes (Filter.compiled? compiles glob) (.glob glob) := by
  intro c hc
  obtain ⟨c', hpattern, hc'⟩ := PatternCache.pattern_eq hc glob
  refine ⟨c', ?_, hc'⟩
  unfold Filter.compiled?
  rw [hpattern]
  exact if_pos (h.source _)

theorem oneOf?_elements (members : TextSet) :
    Filter.oneOf? (.set (members.elements.map .str)) = .ok (Filter.oneOf members) := by
  have htexts : ∀ v ∈ members.elements.map Value.str, v.IsText := by
    intro v hv
    obtain ⟨s, -, rfl⟩ := List.mem_map.1 hv
    exact ⟨s, rfl⟩
  obtain ⟨paths, hpaths⟩ := Filter.exists_textSet?_iff.2 htexts
  -- sets of texts are equal if they have the same members, in whatever order they list them
  have hsame : paths = members := by
    refine TextSet.ext fun p => ?_
    rw [Filter.mem_of_textSet?_eq_ok hpaths, TextSet.mem_def]
    simp
  rw [hsame] at hpaths
  exact Filter.oneOf?_eq_ok.2 ⟨_, members, rfl, hpaths, rfl⟩

/-- A parent with a separator at its end passes the check for one. -/
theorem children?_withSeparator (dir : String) :
    Filter.children? (.str (Filter.withSeparator dir)) = .ok (Filter.childOf dir) := by
  refine Filter.children?_eq_ok.2 ⟨_, rfl, ?_, rfl⟩
  unfold Filter.withSeparator
  by_cases h : dir.toList.getLast? = some '/'
  · simp [h]
  · simp [h]

/-- The filter of a selector is made as it is said. -/
theorem makes_selectorFilter (h : CompilesExpressions compiles) (s : Rule.Selector) :
    Makes (s.filter? compiles) s.filter := by
  cases s with
  | set members => exact .lift (oneOf?_elements members)
  | path p =>
    have hdir : Makes (do
        let dir ← StateT.lift (Filter.requireText "path" (.str p))
        StateT.lift (Filter.children? (.str (Filter.withSeparator dir)))) (Filter.childOf p) :=
      (Makes.lift rfl).bind (.lift (children?_withSeparator p))
    exact .ite (makes_compiled h p) (.ite hdir (.lift rfl))

theorem makes_ruleFilter (h : CompilesExpressions compiles) (r : Rule) :
    Makes (r.filter? compiles) r.filter :=
  makes_selectorFilter h r.selector

/-! ## Rule lists -/

namespace Filter.Builder

theorem addAll_nil (b : Builder) : b.addAll [] = b := by
  rw [addAll, List.append_nil]

theorem addAll_cons (b : Builder) (f : Filter) (answer : Bool) (rules : List (Filter × Bool)) :
    b.addAll ((f, answer) :: rules) = (b.add f answer).addAll rules := by
  simp [addAll, add]

theorem makes_add (b : Builder) (f : Filter) (answer : Bool) :
    Makes (b.add? (.filter f) answer) (b.add f answer) :=
  (Makes.lift rfl).bind (.pure _)

/-- Filters are added one by one, by induction on them. -/
theorem makes_addFilters (b : Builder) (rules : List (Filter × Bool)) :
    Makes (b.addFilters? rules) (b.addAll rules) := by
  induction rules generalizing b with
  | nil =>
    rw [addAll_nil]
    exact .pure b
  | cons r rules ih =>
    obtain ⟨f, answer⟩ := r
    rw [addAll_cons]
    exact (makes_add b f answer).bind (ih _)

/-- The rules are added to a builder in their order. -/
theorem makes_addRules (h : CompilesExpressions compiles) (b : Builder) (rules : List Rule) :
    Makes (b.addRules? compiles rules) (b.addAll (rules.map Rule.toFilterRule)) := by
  induction rules generalizing b with
  | nil =>
    rw [List.map_nil, addAll_nil]
    exact .pure b
  | cons r rules ih =>
    rw [List.map_cons, Rule.toFilterRule, addAll_cons]
    exact ((makes_ruleFilter h r).bind (makes_add b _ _)).bind (ih _)

end Filter.Builder

open Filter.Builder (makes_addFilters makes_addRules)

/-! ## Edges -/

theorem makes_importFilter (h : CompilesExpressions compiles) (d : ModuleDependency) :
    Makes (d.importFilter? compiles) d.importFilter := by
  refine .ite (.pure _) ?_
  refine (makes_addFilters _ _).bind ?_
  refine (makes_addRules h _ _).bind ?_
  exact (makes_addFilters _ _).bind (.pure _)

theorem makes_exportFilterOf (h : CompilesExpressions compiles) (reexport : Bool)
    (rules : List Rule) (services : Services) :
    Makes (exportFilterOf? compiles reexport rules services)
      (exportFilterOf reexport rules services) := by
  refine (makes_addRules h _ _).bind ?_
  refine (makes_addFilters _ _).bind ?_
  exact (makes_addFilters _ _).bind (.pure _)

theorem makes_resolve (h : CompilesExpressions compiles) (d : Dependency) :
    Makes (d.resolve? compiles) d.resolve := by
  cases d with
  | onModule d =>
    refine (makes_importFilter h d).bind ?_
    exact (makes_exportFilterOf h _ _ _).bind (.pure _)
  | onPlatform d => exact (makes_exportFilterOf h _ _ _).bind (.pure _)

/-- All edges of a module are made, in the order of its dependencies. -/
theorem makes_edges (h : CompilesExpressions compiles) (d : Descriptor) :
    Makes (d.edges? compiles) d.edges := by
  have hown : Makes (d.ownEdge? compiles) d.ownEdge := (makes_addRules h _ _).bind (.pure _)
  exact hown.bind ((Makes.mapM (makes_resolve h) _).bind (.pure _))

/-! ## Descriptors -/

/-- The rules of a dependency. -/
def Dependency.rules : Dependency → List Rule
  | .onModule d => d.importRules ++ d.exportRules
  | .onPlatform d => d.exportRules

/-- All rules of a descriptor. -/
def Descriptor.rules (d : Descriptor) : List Rule :=
  d.exportRules ++ d.dependencies.flatMap Dependency.rules

/-- An edge remembers what it comes from. -/
theorem origin_resolve (d : Dependency) : d.resolve.origin = d.origin := by
  cases d with
  | onModule d => rfl
  | onPlatform d => rfl

/-- The first edge leads to the module itself, the others where the dependencies lead. -/
theorem map_origin_edges (d : Descriptor) :
    d.edges.map Edge.origin = .own d.name :: d.dependencies.map Dependency.origin := by
  rw [Descriptor.edges, List.map_cons, List.map_map]
  refine congrArg _ (List.map_congr_left fun dep _ => ?_)
  exact origin_resolve dep

/-- The edges of a descriptor that is read can be made, and there is one more than there are
dependencies: the first leads to the module itself, and the others, in order, where the data of the
dependencies declare. The filter of every rule can be made, and every glob has a source that can be
compiled. -/
theorem edges_of_ofValue? (hcompiles : CompilesExpressions compiles) {v : Value} {d : Descriptor}
    (h : Descriptor.ofValue? v = .ok d) :
    Makes (d.edges? compiles) d.edges ∧
    d.edges.length = d.dependencies.length + 1 ∧
    d.edges.map Edge.origin = .own d.name :: d.dependencies.map Dependency.origin ∧
    (∃ entries items, v = .dict entries ∧ Value.field? "name" entries = some (.str d.name) ∧
      Descriptor.Lists entries items ∧
      List.Forall₂ (fun w dep => Descriptor.Declares w dep.origin) items d.dependencies) ∧
    (∀ r ∈ d.rules, Makes (r.filter? compiles) r.filter) ∧
    ∀ glob : String, (∃ e, Glob.Expression.ofText? (Glob.Pattern.ofGlob glob).source = some e) ∧
      compiles (Glob.Pattern.ofGlob glob).source = true := by
  have hlength : d.edges.length = d.dependencies.length + 1 := by
    rw [Descriptor.edges, List.length_cons, List.length_map]
  refine ⟨makes_edges hcompiles d, hlength, map_origin_edges d,
    Descriptor.declares_of_ofValue? h, fun r _ => makes_ruleFilter hcompiles r, fun glob => ?_⟩
  exact ⟨⟨_, Glob.ofText?_source _⟩, hcompiles.source _⟩

/-- Rules on the top, on lone and trailing backslashes and on escaped wildcards. -/
def oddRules : Value := .list [
  .dict [(.str "exclude", .str "/")],
  .dict [(.str "include", .str "\\")],
  .dict [(.str "exclude", .dict [(.str "path", .str "a\\*b\\")])],
  .dict [(.str "include-set", .tuple [.str "*", .str "/"])]]

/-- A descriptor with such rules, and with dependencies of every form. -/
def oddData : Value := .dict [
  (.str "name", .str "m"),
  (.str "exports", oddRules),
  (.str "dependencies", .list [
    .dict [(.str "module", .str "n"), (.str "optional", .str "TRUE"),
      (.str "services", .str "import"), (.str "imports", oddRules)],
    .dict [(.str "system", .dict [(.str "paths", .list [.str "javax/sql"])])],
    .dict [(.str "system", .null)]])]

/-- What is read from those rules. -/
def oddRuleList : List Rule :=
  [⟨false, .path "/"⟩, ⟨true, .path "\\"⟩, ⟨false, .path "a\\*b\\"⟩,
    ⟨true, .set (.ofList ["*", "/"])⟩]

/-- What is read from the descriptor. -/
def oddDescriptor : Descriptor where
  name := "m"
  exportRules := oddRuleList
  dependencies := [
    .onModule { target := "n", optional := true, services := .visible, importRules := oddRuleList },
    .onPlatform { paths := .ofList ["javax/sql"] },
    .onPlatform {}]

/-- A cache with room for one pattern. -/
def narrowCache : PatternCache := { settings := ⟨.int 1, .bool true⟩ }

/-- The edges of that descriptor are made with such a cache, compiling just what is in the notation
of expressions. -/
theorem edges_oddData :
    CompilesExpressions (fun source => (Glob.Expression.ofText? source).isSome) ∧
      Descriptor.ofValue? oddData = .ok oddDescriptor ∧
      (∃ c, (oddDescriptor.edges? fun source => (Glob.Expression.ofText? source).isSome)
        narrowCache = .ok (oddDescriptor.edges, c)) ∧
      oddDescriptor.edges.map Edge.origin =
        [.own "m", .onModule "n" true .visible, .onPlatform (.ofList ["javax/sql"]),
          .onPlatform .empty] := by
  have hcompiles : CompilesExpressions fun source =>
      (Glob.Expression.ofText? source).isSome :=
    fun _ e he => Option.isSome_iff_exists.2 ⟨e, he⟩
  have hread : Descriptor.ofValue? oddData = .ok oddDescriptor := rfl
  obtain ⟨hmakes, -, horigins, -⟩ := edges_of_ofValue? hcompiles hread
  have hcache : Cache.Remembers Glob.Pattern.ofGlob narrowCache :=
    ⟨by decide, fun _ he => absurd he List.not_mem_nil⟩
  obtain ⟨c, hmade, -⟩ := hmakes narrowCache hcache
  exact ⟨hcompiles, hread, ⟨c, hmade⟩, horigins⟩

end ModulePath
