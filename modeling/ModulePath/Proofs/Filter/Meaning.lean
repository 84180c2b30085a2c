import ModulePath.Proofs.Filter.Arguments
import ModulePath.Proofs.Filter.FirstRule
import ModulePath.Proofs.Glob.Cut

/-!
# What a filter expression means

An expression says of a path whether it is accepted, without a filter being built: a constant, an
equality, a longer text with a given beginning, membership, the cut of a glob, the Boolean
operations, and the first rule that applies (`Expr.Holds`). The filter that is built looks
different where building simplifies or spreads a list over the arguments, but it accepts the same
paths. It is built whenever the arguments fit (`Expr.Proper`), and never otherwise
(`build_accepts_iff_holds`).
-/

set_option autoImplicit false

namespace ModulePath.Filter

/-! ## Meaning -/

/-- The paths of a filter that goes by a name. -/
def WellKnown.Holds (path : String) : WellKnown → Prop
  | .defaultImport => ¬ AtOrBelow ModulePath.metaInf path
  | .defaultImportWithServices =>
    AtOrBelow metaInfServices path ∨ ¬ AtOrBelow ModulePath.metaInf path
  | .metaInf => path = ModulePath.metaInf
  | .metaInfChildren => Below ModulePath.metaInf path
  | .services => AtOrBelow metaInfServices path
  | .withoutMetaInf => path ≠ ModulePath.metaInf

namespace Expr

mutual
/-- An expression accepts a path. -/
def Holds (path : String) : Expr → Prop
  | value _ => False
  | const answer => answer = true
  | wellKnown name => name.Holds path
  | equals v => v = .str path
  | children v => ∃ parent, v = .str parent ∧ GoesOnAfter parent path
  | childOf v => ∃ dir, v = .str dir ∧ GoesOnAfter (withSeparator dir) path
  | selfOrChildOf v => ∃ dir, v = .str dir ∧ (path = dir ∨ GoesOnAfter (withSeparator dir) path)
  | glob v => ∃ pattern, v = .str pattern ∧ Glob.Cut (Glob.tokens pattern.toList) path.toList
  | oneOf v => ∃ items, v.items? = some items ∧ .str path ∈ items
  | negate e => ¬ Holds path e
  | inverse e => ¬ Holds path e
  | combine .any es => SomeHolds path es
  | combine .all es => AllHold path es
  | combine .none es => ¬ SomeHolds path es
  | combineList .any es => SomeHolds path es
  | combineList .all es => AllHold path es
  | combineList .none es => ¬ SomeHolds path es
  | rules default rs => FirstHolds path default rs
  | probe _ answer => answer = true
/-- Some expression of a list accepts a path. -/
def SomeHolds (path : String) : List Expr → Prop
  | [] => False
  | e :: es => Holds path e ∨ SomeHolds path es
/-- Every filter of a list of expressions accepts a path. -/
def AllHold (path : String) : List Expr → Prop
  | [] => True
  | value _ :: es => AllHold path es
  | e :: es => Holds path e ∧ AllHold path es
/-- The first rule that accepts a path includes it, or else the default does. -/
def FirstHolds (path : String) (default : Value) : List (Expr × Value) → Prop
  | [] => default.truthy = true
  | (e, answer) :: rs =>
    (Holds path e ∧ answer.truthy = true) ∨ (¬ Holds path e ∧ FirstHolds path default rs)
end

/-- The arguments of an expression fit, all the way down. -/
inductive Proper : Expr → Prop
  | const (answer : Bool) : Proper (const answer)
  | wellKnown (name : WellKnown) : Proper (wellKnown name)
  | equals (path : String) : Proper (equals (.str path))
  | children (parent : String) (h : parent.toList.getLast? = some '/') :
    Proper (children (.str parent))
  | childOf (dir : String) : Proper (childOf (.str dir))
  | selfOrChildOf (dir : String) : Proper (selfOrChildOf (.str dir))
  | glob (pattern : String) : Proper (glob (.str pattern))
  | oneOf (v : Value) (items : List Value) (hitems : v.items? = some items)
    (htexts : ∀ item ∈ items, item.IsText) : Proper (oneOf v)
  | negate (e : Expr) (h : Proper e) : Proper (negate e)
  | inverse (e : Expr) (h : Proper e) : Proper (inverse e)
  | combine (mode : Combine) (es : List Expr) (h : ∀ e ∈ es, Proper e) : Proper (combine mode es)
  /-- One argument that is an empty collection of filters. -/
  | combineEmpty (mode : Combine) (v : Value) (h : v.items? = some []) :
    Proper (combine mode [value v])
  | combineList (mode : Combine) (es : List Expr) (h : ∀ e ∈ es, Proper e) :
    Proper (combineList mode es)
  | rules (default : Value) (rs : List (Expr × Value)) (h : ∀ r ∈ rs, Proper r.1) :
    Proper (rules default rs)
  | probe (name : String) (answer : Bool) : Proper (probe name answer)

end Expr

/-! ## What building makes -/

variable {path : String}

theorem accepts_withoutMetaInfItself :
    withoutMetaInfItself.accepts path = true ↔ path ≠ metaInf := by
  have hself : (equals metaInf).accepts path = true ↔ path = metaInf := accepts_equals
  have hbelow : (childOf metaInf).accepts path = true ↔ Below metaInf path :=
    accepts_childOf getLast?_metaInf
  have hapart : Below metaInf path → path ≠ metaInf := by
    rintro ⟨-, hlonger⟩ rfl
    exact absurd hlonger (by decide)
  rw [withoutMetaInfItself, accepts_create]
  simp only [Builder.add, Builder.new, List.nil_append, List.cons_append, metaInfChildren,
    metaInfItself, firstRule]
  by_cases hchild : (childOf metaInf).accepts path = true
  · simpa [hchild] using hapart (hbelow.1 hchild)
  · rw [if_neg hchild, Ne, ← hself]
    cases (equals metaInf).accepts path <;> simp

/-- A well-known filter accepts what its name says. -/
theorem accepts_wellKnown {name : WellKnown} :
    name.filter.accepts path = true ↔ name.Holds path := by
  cases name with
  | defaultImport =>
    rw [WellKnown.filter, accepts_defaultImport, WellKnown.Holds]
    by_cases h : AtOrBelow metaInf path <;> simp [h]
  | defaultImportWithServices =>
    rw [WellKnown.filter, accepts_defaultImportWithServices, WellKnown.Holds]
    by_cases hs : AtOrBelow metaInfServices path
    · simp [hs]
    · by_cases h : AtOrBelow metaInf path <;> simp [hs, h]
  | metaInf => exact accepts_equals
  | metaInfChildren => exact accepts_childOf getLast?_metaInf
  | services => exact accepts_selfOrChildOf getLast?_metaInfServices
  | withoutMetaInf => exact accepts_withoutMetaInfItself

/-- The inverse of an inverse and of a constant are simplified, which keeps the answer. -/
theorem accepts_negate (f : Filter) : (negate f).accepts path = !f.accepts path := by
  cases f with
  | const answer => simp [negate, accepts]
  | inverse delegate => simp [negate, accepts]
  | equals _ | children _ | members _ | glob _ | aggregate _ _ | rules _ _ | probe _ _ =>
    simp only [negate, accepts]

theorem accepts_anyOf {fs : List Filter} :
    (anyOf fs).accepts path = true ↔ ∃ f ∈ fs, f.accepts path = true := by
  rw [anyOf, accepts]
  induction fs with
  | nil => simp [decideFirst, Mode.dominant]
  | cons f fs ih =>
    rw [decideFirst]
    by_cases hf : f.accepts path = true
    · simp [hf, Mode.dominant]
    · simpa [hf, Mode.dominant] using ih

theorem accepts_allOf {fs : List Filter} :
    (allOf fs).accepts path = true ↔ ∀ f ∈ fs, f.accepts path = true := by
  rw [allOf, accepts]
  induction fs with
  | nil => simp [decideFirst, Mode.dominant]
  | cons f fs ih =>
    rw [decideFirst]
    by_cases hf : f.accepts path = true
    · simpa [hf, Mode.dominant] using ih
    · simp [hf, Mode.dominant]

theorem accepts_noneOf {fs : List Filter} :
    (noneOf fs).accepts path = true ↔ ¬ ∃ f ∈ fs, f.accepts path = true := by
  rw [noneOf, accepts_negate, ← accepts_anyOf, Bool.not_eq_true', Bool.not_eq_true]

namespace Expr

/-- The arguments of an expression fit, and the filter that it makes says what it means. Data are
made by no expression but themselves. -/
def Denotes (path : String) (e : Expr) : Operand → Prop
  | .filter f => e.Proper ∧ (f.accepts path = true ↔ Holds path e)
  | .value v => e = value v

theorem not_proper_value {v : Value} : ¬ (value v).Proper := nofun

theorem proper_of_denotes {es : List Expr} {fs : List Filter}
    (h : List.Forall₂ (Denotes path) es (fs.map .filter)) : ∀ e ∈ es, e.Proper := by
  induction fs generalizing es with
  | nil =>
    obtain rfl := List.forall₂_nil_right_iff.1 h
    exact List.forall_mem_nil _
  | cons f fs ih =>
    obtain ⟨e, es, ⟨hproper, -⟩, hes, rfl⟩ := List.forall₂_cons_right_iff.1 h
    exact List.forall_mem_cons.2 ⟨hproper, ih hes⟩

/-- Some expression holds exactly if the filter of one accepts. -/
theorem someHolds_iff {es : List Expr} {fs : List Filter}
    (h : List.Forall₂ (Denotes path) es (fs.map .filter)) :
    SomeHolds path es ↔ ∃ f ∈ fs, f.accepts path = true := by
  induction fs generalizing es with
  | nil =>
    obtain rfl := List.forall₂_nil_right_iff.1 h
    simp [SomeHolds]
  | cons f fs ih =>
    obtain ⟨e, es, ⟨-, he⟩, hes, rfl⟩ := List.forall₂_cons_right_iff.1 h
    rw [SomeHolds, List.exists_mem_cons_iff, he, ih hes]

/-- All expressions hold exactly if the filters of all accept. -/
theorem allHold_iff {es : List Expr} {fs : List Filter}
    (h : List.Forall₂ (Denotes path) es (fs.map .filter)) :
    AllHold path es ↔ ∀ f ∈ fs, f.accepts path = true := by
  induction fs generalizing es with
  | nil =>
    obtain rfl := List.forall₂_nil_right_iff.1 h
    simp [AllHold]
  | cons f fs ih =>
    obtain ⟨e, es, ⟨hproper, he⟩, hes, rfl⟩ := List.forall₂_cons_right_iff.1 h
    rw [AllHold, List.forall_mem_cons, he, ih hes]
    rintro v rfl
    exact not_proper_value hproper

/-- The aggregate of what the expressions of a list make. -/
theorem accepts_of {mode : Combine} {es : List Expr} {fs : List Filter}
    (h : List.Forall₂ (Denotes path) es (fs.map .filter)) :
    (mode.of fs).accepts path = true ↔ Holds path (combineList mode es) := by
  cases mode with
  | any => rw [Combine.of, accepts_anyOf, Holds, someHolds_iff h]
  | all => rw [Combine.of, accepts_allOf, Holds, allHold_iff h]
  | none => rw [Combine.of, accepts_noneOf, Holds, someHolds_iff h]

/-- Several arguments mean what a list of them means. -/
theorem holds_combine {mode : Combine} {es : List Expr} :
    Holds path (combine mode es) ↔ Holds path (combineList mode es) := by
  cases mode with
  | any | all | none => exact Iff.rfl

/-- No delegates at all are what an empty collection stands for. -/
theorem accepts_of_nil {mode : Combine} {v : Value} :
    (mode.of []).accepts path = true ↔ Holds path (combineList mode [value v]) := by
  cases mode with
  | any => simp [Combine.of, accepts_anyOf, Holds, SomeHolds]
  | all => simp [Combine.of, accepts_allOf, Holds, AllHold]
  | none => simp [Combine.of, accepts_noneOf, Holds, SomeHolds]

/-- A combination denotes the combined filter, also where its operands come in one list. -/
theorem denotes_of_spread {mode : Combine} {es : List Expr} {os : List Operand} {fs : List Filter}
    (h : List.Forall₂ (Denotes path) es os) (hspread : spread os = .ok (fs.map .filter)) :
    Denotes path (combine mode es) (.filter (mode.of fs)) := by
  rw [Denotes, holds_combine]
  -- a single collection of filters can only be an empty one, since its members are data
  rcases spread_eq_ok.1 hspread with rfl | ⟨rfl, v, rfl, hempty⟩
  · exact ⟨.combine mode es (proper_of_denotes h), accepts_of h⟩
  · obtain ⟨e, es, rfl, hes, rfl⟩ := List.forall₂_cons_right_iff.1 h
    obtain rfl := List.forall₂_nil_right_iff.1 hes
    exact ⟨.combineEmpty mode v hempty, accepts_of_nil⟩

/-! ## What an expression makes -/

theorem accepts_of_selfOrChildOf {dir : String} :
    (Filter.selfOrChildOf dir).accepts path = true ↔
      path = dir ∨ GoesOnAfter (withSeparator dir) path := by
  rw [Filter.selfOrChildOf, accepts_anyOf]
  simp [accepts_equals, Filter.childOf, accepts_children]

mutual
/-- By cases on the expression: its arguments fit, and what is built from them accepts the paths
that the expression means. -/
theorem denotes_of_build : ∀ {e : Expr} {o : Operand}, e.build = .ok o → Denotes path e o
  | value v, o, h => by
    obtain rfl := Except.ok.inj h
    exact rfl
  | const answer, o, h => by
    obtain rfl := Except.ok.inj h
    exact ⟨.const answer, by rw [accepts, Holds]⟩
  | wellKnown name, o, h => by
    obtain rfl := Except.ok.inj h
    exact ⟨.wellKnown name, by rw [accepts_wellKnown, Holds]⟩
  | equals v, o, h => by
    obtain ⟨f, hf, rfl⟩ := Outcome.map_eq_ok.1 h
    obtain ⟨p, rfl, rfl⟩ := equals?_eq_ok.1 hf
    refine ⟨.equals p, ?_⟩
    rw [accepts_equals, Holds, Value.str.injEq, eq_comm]
  | children v, o, h => by
    obtain ⟨f, hf, rfl⟩ := Outcome.map_eq_ok.1 h
    obtain ⟨parent, rfl, hparent, rfl⟩ := children?_eq_ok.1 hf
    refine ⟨.children parent hparent, ?_⟩
    simp [accepts_children, Holds]
  | childOf v, o, h => by
    obtain ⟨f, hf, rfl⟩ := Outcome.map_eq_ok.1 h
    obtain ⟨dir, rfl, rfl⟩ := childOf?_eq_ok.1 hf
    refine ⟨.childOf dir, ?_⟩
    simp [Filter.childOf, accepts_children, Holds]
  | selfOrChildOf v, o, h => by
    obtain ⟨f, hf, rfl⟩ := Outcome.map_eq_ok.1 h
    obtain ⟨dir, rfl, rfl⟩ := selfOrChildOf?_eq_ok.1 hf
    refine ⟨.selfOrChildOf dir, ?_⟩
    simp [accepts_of_selfOrChildOf, Holds]
  | glob v, o, h => by
    obtain ⟨f, hf, rfl⟩ := Outcome.map_eq_ok.1 h
    obtain ⟨pattern, rfl, rfl⟩ := glob?_eq_ok.1 hf
    refine ⟨.glob pattern, ?_⟩
    simp [Glob.accepts_iff_cut, Holds]
  | oneOf v, o, h => by
    obtain ⟨f, hf, rfl⟩ := Outcome.map_eq_ok.1 h
    obtain ⟨items, paths, hitems, hpaths, rfl⟩ := oneOf?_eq_ok.1 hf
    refine ⟨.oneOf v items hitems (exists_textSet?_iff.1 ⟨paths, hpaths⟩), ?_⟩
    rw [Filter.oneOf, accepts, Holds, TextSet.contains_iff, mem_of_textSet?_eq_ok hpaths]
    simp [hitems]
  | negate e, o, h => by
    obtain ⟨delegate, hdelegate, rfl⟩ := ofDelegate_eq_ok.1 h
    obtain ⟨hproper, hmeans⟩ := denotes_of_build hdelegate
    refine ⟨.negate e hproper, ?_⟩
    rw [accepts_negate, Holds, ← hmeans, Bool.not_eq_true', Bool.not_eq_true]
  | inverse e, o, h => by
    obtain ⟨delegate, hdelegate, rfl⟩ := ofDelegate_eq_ok.1 h
    obtain ⟨hproper, hmeans⟩ := denotes_of_build hdelegate
    refine ⟨.inverse e hproper, ?_⟩
    rw [accepts, Holds, ← hmeans, Bool.not_eq_true', Bool.not_eq_true]
  | combine mode es, o, h => by
    obtain ⟨operands, hall, h⟩ := Outcome.seq_eq_ok.1 h
    obtain ⟨delegates, hspread, h⟩ := Outcome.seq_eq_ok.1 h
    obtain ⟨f, hf, h⟩ := Outcome.seq_eq_ok.1 h
    obtain rfl := Outcome.pure_eq_ok.1 h
    obtain ⟨fs, rfl, rfl⟩ := Combine.build?_eq_ok.1 hf
    -- the delegates are the arguments, or the members of the only one
    exact denotes_of_spread (denotes_of_buildAll hall) hspread
  | combineList mode es, o, h => by
    obtain ⟨operands, hall, h⟩ := Outcome.seq_eq_ok.1 h
    obtain ⟨f, hf, h⟩ := Outcome.seq_eq_ok.1 h
    obtain rfl := Outcome.pure_eq_ok.1 h
    obtain ⟨fs, rfl, rfl⟩ := Combine.build?_eq_ok.1 hf
    have hdelegates := denotes_of_buildAll hall
    exact ⟨.combineList mode es (proper_of_denotes hdelegates), accepts_of hdelegates⟩
  | rules default rs, o, h => by
    obtain ⟨b, hrules, h⟩ := Outcome.seq_eq_ok.1 h
    obtain rfl := Outcome.pure_eq_ok.1 h
    obtain ⟨added, rfl, hproper, hmeans⟩ := denotes_of_buildRules hrules
    refine ⟨.rules default rs hproper, ?_⟩
    rw [accepts_create, Holds]
    exact hmeans default
  | probe name answer, o, h => by
    obtain rfl := Except.ok.inj h
    exact ⟨.probe name answer, by rw [accepts, Holds]⟩
/-- Place by place along the arguments. -/
theorem denotes_of_buildAll : ∀ {es : List Expr} {os : List Operand},
    buildAll es = .ok os → List.Forall₂ (Denotes path) es os
  | [], os, h => by
    obtain rfl := Except.ok.inj h
    exact .nil
  | e :: es, os, h => by
    obtain ⟨o, ho, h⟩ := Outcome.seq_eq_ok.1 h
    obtain ⟨rest, hrest, h⟩ := Outcome.seq_eq_ok.1 h
    obtain rfl := Outcome.pure_eq_ok.1 h
    exact .cons (denotes_of_build ho) (denotes_of_buildAll hrest)
/-- The rules are added after those that the builder has. -/
theorem denotes_of_buildRules : ∀ {rs : List (Expr × Value)} {b b' : Builder},
    buildRules b rs = .ok b' →
      ∃ added, b' = b.addAll added ∧ (∀ r ∈ rs, r.1.Proper) ∧
        ∀ d : Value, firstRule path added d.truthy = true ↔ FirstHolds path d rs
  | [], b, b', h => by
    obtain rfl := Except.ok.inj h
    refine ⟨[], ?_, List.forall_mem_nil _, fun d => ?_⟩
    · simp [Builder.addAll]
    · rw [firstRule, FirstHolds]
  | (e, answer) :: rs, b, b', h => by
    obtain ⟨o, ho, h⟩ := Outcome.seq_eq_ok.1 h
    obtain ⟨f, hf, h⟩ := Outcome.seq_eq_ok.1 h
    obtain rfl := requireFilter_eq_ok.1 hf
    obtain ⟨hproper, hfirst⟩ := denotes_of_build ho
    obtain ⟨added, rfl, hproperRest, hrest⟩ := denotes_of_buildRules h
    -- the builder that the other rules are added to ends in this one
    refine ⟨(f, answer.truthy) :: added, ?_, List.forall_mem_cons.2 ⟨hproper, hproperRest⟩,
      fun d => ?_⟩
    · simp [Builder.addAll, Builder.add]
    · rw [firstRule, FirstHolds, ← hfirst, ← hrest d]
      by_cases haccepts : f.accepts path = true <;> simp [haccepts]
end

/-! ## Arguments that fit -/

/-- Expressions that can be built one by one can be built together. -/
theorem exists_buildAll {es : List Expr} (h : ∀ e ∈ es, ∃ f, e.build = .ok (.filter f)) :
    ∃ fs : List Filter, buildAll es = .ok (fs.map .filter) := by
  induction es with
  | nil => exact ⟨[], rfl⟩
  | cons e es ih =>
    obtain ⟨⟨f, hf⟩, hes⟩ := List.forall_mem_cons.1 h
    obtain ⟨fs, hfs⟩ := ih hes
    refine ⟨f :: fs, ?_⟩
    rw [buildAll, hf, hfs]
    rfl

/-- Rules with filters that can be built are added to any builder. -/
theorem exists_buildRules {rs : List (Expr × Value)} {b : Builder}
    (h : ∀ r ∈ rs, ∃ f, r.1.build = .ok (.filter f)) : ∃ b', buildRules b rs = .ok b' := by
  induction rs generalizing b with
  | nil => exact ⟨b, rfl⟩
  | cons r rs ih =>
    obtain ⟨⟨f, hf⟩, hrs⟩ := List.forall_mem_cons.1 h
    obtain ⟨b', hb'⟩ := @ih (b.add f r.2.truthy) hrs
    refine ⟨b', ?_⟩
    rw [buildRules, hf]
    exact hb'

/-- The filter of arguments that all stand for filters. -/
theorem build_combine {mode : Combine} {es : List Expr} {os : List Operand} {fs : List Filter}
    (hall : buildAll es = .ok os) (hspread : spread os = .ok (fs.map .filter)) :
    (combine mode es).build = .ok (.filter (mode.of fs)) := by
  rw [build, hall]
  refine Outcome.seq_eq_ok.2 ⟨os, rfl, Outcome.seq_eq_ok.2 ⟨_, hspread, ?_⟩⟩
  exact Outcome.seq_eq_ok.2 ⟨_, Combine.build?_map, rfl⟩

/-- By induction on how the arguments fit. -/
theorem exists_build_of_proper {e : Expr} (h : e.Proper) : ∃ f, e.build = .ok (.filter f) := by
  induction h with
  | const answer => exact ⟨_, rfl⟩
  | wellKnown name => exact ⟨_, rfl⟩
  | equals path => exact ⟨_, rfl⟩
  | children parent h =>
    have hbuild : children? (.str parent) = .ok (Filter.children parent) :=
      children?_eq_ok.2 ⟨parent, rfl, h, rfl⟩
    exact ⟨_, Outcome.map_eq_ok.2 ⟨_, hbuild, rfl⟩⟩
  | childOf dir => exact ⟨_, rfl⟩
  | selfOrChildOf dir => exact ⟨_, rfl⟩
  | glob pattern => exact ⟨_, rfl⟩
  | oneOf v items hitems htexts =>
    obtain ⟨paths, hpaths⟩ := exists_textSet?_iff.2 htexts
    have hbuild : oneOf? v = .ok (Filter.oneOf paths) :=
      oneOf?_eq_ok.2 ⟨items, paths, hitems, hpaths, rfl⟩
    exact ⟨_, Outcome.map_eq_ok.2 ⟨_, hbuild, rfl⟩⟩
  | negate e h ih =>
    obtain ⟨f, hf⟩ := ih
    exact ⟨Filter.negate f, ofDelegate_eq_ok.2 ⟨f, hf, rfl⟩⟩
  | inverse e h ih =>
    obtain ⟨f, hf⟩ := ih
    exact ⟨Filter.inverse f, ofDelegate_eq_ok.2 ⟨f, hf, rfl⟩⟩
  | combine mode es h ih =>
    obtain ⟨fs, hfs⟩ := exists_buildAll ih
    exact ⟨_, build_combine hfs (spread_eq_ok.2 (.inl rfl))⟩
  | combineEmpty mode v h =>
    -- an empty list spreads to no operands
    have hall : buildAll [value v] = .ok [.value v] := rfl
    exact ⟨_, build_combine hall (spread_eq_ok.2 (.inr ⟨rfl, v, rfl, h⟩))⟩
  | combineList mode es h ih =>
    obtain ⟨fs, hfs⟩ := exists_buildAll ih
    refine ⟨mode.of fs, ?_⟩
    rw [build, hfs]
    exact Outcome.seq_eq_ok.2 ⟨_, rfl, Outcome.seq_eq_ok.2 ⟨_, Combine.build?_map, rfl⟩⟩
  | rules default rs h ih =>
    obtain ⟨b, hb⟩ := @exists_buildRules rs (Builder.new default.truthy) ih
    exact ⟨b.create, Outcome.seq_eq_ok.2 ⟨b, hb, rfl⟩⟩
  | probe name answer => exact ⟨_, rfl⟩

/-- An expression makes a filter when its arguments fit, and that filter accepts the paths that the
expression means. -/
theorem build_accepts_iff_holds (e : Expr) :
    ((∃ f, e.build = .ok (.filter f)) ↔ e.Proper) ∧
      ∀ f, e.build = .ok (.filter f) → ∀ path, f.accepts path = true ↔ e.Holds path := by
  refine ⟨⟨?_, exists_build_of_proper⟩, ?_⟩
  · rintro ⟨f, hf⟩
    obtain ⟨hproper, -⟩ := @denotes_of_build "" e _ hf
    exact hproper
  · intro f hf path
    obtain ⟨-, hmeans⟩ := @denotes_of_build path e _ hf
    exact hmeans

/-- What is below `lib` but not `lib/a`. None of no filters at all accepts a path, so the second
delegate lets every path through. -/
def sample : Expr :=
  rules (.bool false)
    [(combine .all [negate (negate (childOf (.str "lib"))), combine .none [value (.list [])],
        negate (oneOf (.list [.str "lib/a"]))], .bool true)]

theorem build_accepts_sample :
    ∃ f, sample.build = .ok (.filter f) ∧ f.accepts "lib/b" = true ∧ f.accepts "lib/a" ≠ true := by
  have hproper : sample.Proper := by
    refine .rules _ _ fun r hr => ?_
    obtain rfl := List.mem_singleton.1 hr
    refine .combine _ _ fun e he => ?_
    rcases List.mem_cons.1 he with rfl | he
    · exact .negate _ (.negate _ (.childOf _))
    rcases List.mem_cons.1 he with rfl | he
    · exact .combineEmpty _ _ rfl
    obtain rfl := List.mem_singleton.1 he
    refine .negate _ (.oneOf _ _ rfl fun item hitem => ?_)
    exact ⟨_, List.mem_singleton.1 hitem⟩
  obtain ⟨f, hf⟩ := (build_accepts_iff_holds sample).1.2 hproper
  have hmeans := (build_accepts_iff_holds sample).2 f hf
  refine ⟨f, hf, (hmeans "lib/b").2 ?_, mt (hmeans "lib/a").1 ?_⟩
  · have hbelow : GoesOnAfter (withSeparator "lib") "lib/b" := by decide
    simp [sample, Holds, FirstHolds, AllHold, SomeHolds, Value.items?, Value.truthy, hbelow]
  · simp [sample, Holds, FirstHolds, AllHold, SomeHolds, Value.items?, Value.truthy]

end Expr

end ModulePath.Filter
