import ModulePath.Proofs.Filter.Equality

/-!
# Double negation

`negate` takes an inverse away instead of putting a second one on top, and turns a constant round.
For the answers this makes no difference (`accepts_negate`). For the filter itself it does: negated
twice, a filter is what it was only if the delegate of its outermost inverse is neither an inverse
nor a constant (`negate_negate_iff`). A filter that is made with `negate` alone, and never by
putting an inverse on top, has no such delegate anywhere (`Built.reduced`), because every way to
make a filter keeps this normal form.
-/

set_option autoImplicit false

namespace ModulePath.Filter

variable {f : Filter}

/-! ## The normal form -/

/-- A filter that is inverted as it stands: it is neither an inverse nor a constant. -/
def Plain (f : Filter) : Prop := (∀ g, f ≠ inverse g) ∧ ∀ answer, f ≠ const answer

/-- Every inverse in a filter is that of a plain filter. -/
def Reduced (f : Filter) : Prop := ∀ d, Occurs (inverse d) f → Plain d

/-- The normal form can be told from the outermost part of a filter and from its delegates. -/
theorem reduced_iff :
    Reduced f ↔ (∀ d, f = inverse d → Plain d) ∧ ∀ d ∈ f.delegates, Reduced d := by
  constructor
  · intro h
    constructor
    · rintro d rfl
      exact h d .here
    · intro d hd e he
      exact h e (.inside hd he)
  · rintro ⟨hself, hinside⟩ d hd
    cases hd with
    | here => exact hself d rfl
    | inside hmem hin => exact hinside _ hmem d hin

theorem reduced_of_isLeaf (h : f.isLeaf = true) : Reduced f := by
  rw [reduced_iff, delegates_of_isLeaf h]
  constructor
  · rintro d rfl
    cases h
  · exact List.forall_mem_nil _

/-- An inverse is put on top of a filter that has none there. -/
theorem Reduced.inverse (h : Reduced f) (hplain : Plain f) : Reduced (inverse f) := by
  rw [reduced_iff]
  constructor
  · intro d hd
    obtain rfl := inverse.inj hd
    exact hplain
  · exact List.forall_mem_singleton.2 h

/-- A combination of reduced filters is reduced. -/
theorem reduced_aggregate {mode : Mode} {fs : List Filter} (h : ∀ f ∈ fs, Reduced f) :
    Reduced (aggregate mode fs) :=
  reduced_iff.2 ⟨nofun, h⟩

theorem reduced_rules {rs : List (Filter × Bool)} {default : Bool} (h : ∀ r ∈ rs, Reduced r.1) :
    Reduced (rules rs default) :=
  reduced_iff.2 ⟨nofun, List.forall_mem_map.2 h⟩

/-! ## Negation -/

/-- What `negate` makes of a filter. -/
theorem negate_cases (f : Filter) :
    (∃ d, f = inverse d ∧ negate f = d) ∨
      (∃ answer, f = const answer ∧ negate f = const (!answer)) ∨
      Plain f ∧ negate f = inverse f := by
  cases f with
  | inverse d => exact .inl ⟨d, rfl, rfl⟩
  | const answer => exact .inr (.inl ⟨answer, rfl, rfl⟩)
  | equals | children | members | glob | aggregate | rules | probe =>
    exact .inr (.inr ⟨⟨nofun, nofun⟩, rfl⟩)

/-- A filter without an inverse on top is negated by one. -/
theorem negate_of_plain (h : Plain f) : negate f = inverse f := by
  rcases negate_cases f with ⟨d, rfl, -⟩ | ⟨answer, rfl, -⟩ | ⟨-, hnegate⟩
  · exact absurd rfl (h.1 d)
  · exact absurd rfl (h.2 answer)
  · exact hnegate

/-- Twice negated, a filter comes back unless an inverse of it could have been simplified. -/
theorem negate_negate_iff : negate (negate f) = f ↔ ∀ d, f = inverse d → Plain d := by
  rcases negate_cases f with ⟨d, rfl, hnegate⟩ | ⟨answer, rfl, hnegate⟩ | ⟨hplain, hnegate⟩
  · rw [hnegate]
    constructor
    · rintro h e he
      obtain rfl := inverse.inj he
      -- the other two kinds of filters lose their inverse for good
      rcases negate_cases d with ⟨e, rfl, he⟩ | ⟨answer, rfl, he⟩ | ⟨hplain, -⟩
      · have hsize := congrArg sizeOf (he.symm.trans h)
        simp only [inverse.sizeOf_spec] at hsize
        omega
      · cases he.symm.trans h
      · exact hplain
    · intro h
      exact negate_of_plain (h d rfl)
  · rw [hnegate]
    simp [negate]
  · rw [hnegate]
    constructor
    · intro _ d hd
      exact absurd hd (hplain.1 d)
    · intro _
      rfl

/-- The negation of a reduced filter is reduced. -/
theorem Reduced.negate (h : Reduced f) : Reduced (negate f) := by
  rcases negate_cases f with ⟨d, rfl, hnegate⟩ | ⟨answer, rfl, hnegate⟩ | ⟨hplain, hnegate⟩
  · rw [hnegate]
    exact (reduced_iff.1 h).2 d List.mem_cons_self
  · rw [hnegate]
    exact reduced_of_isLeaf rfl
  · rw [hnegate]
    exact h.inverse hplain

/-- A reduced filter is its own double negation. -/
theorem Reduced.negate_negate (h : Reduced f) : Filter.negate (Filter.negate f) = f :=
  negate_negate_iff.2 (reduced_iff.1 h).1

/-! ## Filters that are made with `negate` alone -/

/-- A filter that is made by the ways to make one, none of which puts an inverse on top. -/
inductive Built : Filter → Prop
  | leaf {f : Filter} (h : f.isLeaf = true) : Built f
  | negate {f : Filter} (h : Built f) : Built (negate f)
  | combine (mode : Combine) {fs : List Filter} (h : ∀ f ∈ fs, Built f) : Built (mode.of fs)
  | create {b : Builder} (h : ∀ r ∈ b.rules, Built r.1) : Built b.create

/-- By induction on how the filter is made. -/
theorem Built.reduced (h : Built f) : Reduced f := by
  induction h with
  | leaf h => exact reduced_of_isLeaf h
  | negate _ ih => exact ih.negate
  | combine mode _ ih =>
    cases mode with
    | any => exact reduced_aggregate ih
    | all => exact reduced_aggregate ih
    | none => exact (reduced_aggregate ih).negate
  | @create b _ ih =>
    unfold Builder.create
    split
    · exact reduced_of_isLeaf rfl
    · exact reduced_rules ih

theorem built_selfOrChildOf (dir : String) : Built (selfOrChildOf dir) := by
  apply Built.combine .any
  intro f hf
  apply Built.leaf
  simp only [List.mem_cons, List.not_mem_nil, or_false] at hf
  rcases hf with rfl | rfl <;> rfl

/-- Rules about leaves create a filter that is built. -/
theorem built_create_of_isLeaf {b : Builder} (h : ∀ r ∈ b.rules, r.1.isLeaf = true) :
    Built b.create :=
  .create fun r hr => .leaf (h r hr)

theorem WellKnown.built (name : WellKnown) : Built name.filter := by
  cases name with
  | defaultImport =>
    rw [WellKnown.filter, Filter.defaultImport]
    apply built_create_of_isLeaf
    decide
  | defaultImportWithServices =>
    rw [WellKnown.filter, Filter.defaultImportWithServices]
    apply built_create_of_isLeaf
    decide
  | metaInf => exact .leaf rfl
  | metaInfChildren => exact .leaf rfl
  | services => exact built_selfOrChildOf metaInfServices
  | withoutMetaInf =>
    rw [WellKnown.filter, withoutMetaInfItself]
    apply built_create_of_isLeaf
    decide

namespace Expr

/-- An expression in which inverses are made by `negate` alone. -/
inductive Simplifying : Expr → Prop
  | value (v : Value) : Simplifying (value v)
  | const (answer : Bool) : Simplifying (const answer)
  | wellKnown (name : WellKnown) : Simplifying (wellKnown name)
  | equals (path : Value) : Simplifying (equals path)
  | children (parent : Value) : Simplifying (children parent)
  | childOf (path : Value) : Simplifying (childOf path)
  | selfOrChildOf (path : Value) : Simplifying (selfOrChildOf path)
  | glob (pattern : Value) : Simplifying (glob pattern)
  | oneOf (paths : Value) : Simplifying (oneOf paths)
  | negate {e : Expr} (h : Simplifying e) : Simplifying (negate e)
  | combine (mode : Combine) {es : List Expr} (h : ∀ e ∈ es, Simplifying e) :
    Simplifying (combine mode es)
  | combineList (mode : Combine) {es : List Expr} (h : ∀ e ∈ es, Simplifying e) :
    Simplifying (combineList mode es)
  | rules (default : Value) {rs : List (Expr × Value)} (h : ∀ r ∈ rs, Simplifying r.1) :
    Simplifying (rules default rs)
  | probe (name : String) (answer : Bool) : Simplifying (probe name answer)

theorem map_filter_eq_ok {r : Outcome Error Filter} {f : Filter} :
    r.map Operand.filter = .ok (.filter f) ↔ r = .ok f := by
  simp [Outcome.map_eq_ok]

mutual
/-- By cases on the expression: what it makes is built from what its arguments make. -/
theorem built_of_build : ∀ {e : Expr} {f : Filter},
    e.Simplifying → e.build = .ok (.filter f) → Built f
  | value v, f, _, h => by cases h
  | const answer, f, _, h => by
    cases h
    exact .leaf rfl
  | wellKnown name, f, _, h => by
    cases h
    exact name.built
  | equals v, f, _, h => by
    obtain ⟨p, -, rfl⟩ := equals?_eq_ok.1 (map_filter_eq_ok.1 h)
    exact .leaf rfl
  | children v, f, _, h => by
    obtain ⟨parent, -, -, rfl⟩ := children?_eq_ok.1 (map_filter_eq_ok.1 h)
    exact .leaf rfl
  | childOf v, f, _, h => by
    obtain ⟨dir, -, rfl⟩ := childOf?_eq_ok.1 (map_filter_eq_ok.1 h)
    exact .leaf rfl
  | selfOrChildOf v, f, _, h => by
    obtain ⟨dir, -, rfl⟩ := selfOrChildOf?_eq_ok.1 (map_filter_eq_ok.1 h)
    exact built_selfOrChildOf dir
  | glob v, f, _, h => by
    obtain ⟨pattern, -, rfl⟩ := glob?_eq_ok.1 (map_filter_eq_ok.1 h)
    exact .leaf rfl
  | oneOf v, f, _, h => by
    obtain ⟨items, paths, -, -, rfl⟩ := oneOf?_eq_ok.1 (map_filter_eq_ok.1 h)
    exact .leaf rfl
  | negate e, f, hs, h => by
    cases hs with
    | negate hs =>
      obtain ⟨d, hd, hf⟩ := ofDelegate_eq_ok.1 h
      cases hf
      exact (built_of_build hs hd).negate
  | inverse e, f, hs, _ => nomatch hs
  | combine mode es, f, hs, h => by
    cases hs with
    | combine _ hs =>
      -- the operands are the filters of the expressions, or one empty list
      obtain ⟨operands, hall, h⟩ := Outcome.seq_eq_ok.1 h
      obtain ⟨delegates, hspread, h⟩ := Outcome.seq_eq_ok.1 h
      obtain ⟨g, hg, h⟩ := Outcome.seq_eq_ok.1 h
      cases Outcome.pure_eq_ok.1 h
      obtain ⟨fs, rfl, rfl⟩ := Combine.build?_eq_ok.1 hg
      apply Built.combine
      rcases spread_eq_ok.1 hspread with rfl | ⟨rfl, -⟩
      · intro d hd
        exact built_of_buildAll hs hall d (List.mem_map_of_mem hd)
      · exact List.forall_mem_nil _
  | combineList mode es, f, hs, h => by
    cases hs with
    | combineList _ hs =>
      obtain ⟨operands, hall, h⟩ := Outcome.seq_eq_ok.1 h
      obtain ⟨g, hg, h⟩ := Outcome.seq_eq_ok.1 h
      cases Outcome.pure_eq_ok.1 h
      obtain ⟨fs, rfl, rfl⟩ := Combine.build?_eq_ok.1 hg
      apply Built.combine
      intro d hd
      exact built_of_buildAll hs hall d (List.mem_map_of_mem hd)
  | rules default rs, f, hs, h => by
    cases hs with
    | rules _ hs =>
      obtain ⟨b, hrules, h⟩ := Outcome.seq_eq_ok.1 h
      cases Outcome.pure_eq_ok.1 h
      exact .create (built_of_buildRules hs (List.forall_mem_nil _) hrules)
  | probe name answer, f, _, h => by
    cases h
    exact .leaf rfl
/-- Place by place along the arguments. -/
theorem built_of_buildAll : ∀ {es : List Expr} {os : List Operand}, (∀ e ∈ es, e.Simplifying) →
    buildAll es = .ok os → ∀ f, .filter f ∈ os → Built f
  | [], os, _, h, f, hf => by
    cases h
    cases hf
  | e :: es, os, hs, h, f, hf => by
    obtain ⟨o, ho, h⟩ := Outcome.seq_eq_ok.1 h
    obtain ⟨rest, hrest, h⟩ := Outcome.seq_eq_ok.1 h
    cases Outcome.pure_eq_ok.1 h
    obtain ⟨he, hes⟩ := List.forall_mem_cons.1 hs
    rcases List.mem_cons.1 hf with rfl | hf
    · exact built_of_build he ho
    · exact built_of_buildAll hes hrest f hf
/-- The rules are added to those that the builder has. -/
theorem built_of_buildRules : ∀ {rs : List (Expr × Value)} {b b' : Builder},
    (∀ r ∈ rs, r.1.Simplifying) → (∀ r ∈ b.rules, Built r.1) → buildRules b rs = .ok b' →
      ∀ r ∈ b'.rules, Built r.1
  | [], b, b', _, hb, h => by
    cases h
    exact hb
  | (e, answer) :: rs, b, b', hs, hb, h => by
    obtain ⟨o, ho, h⟩ := Outcome.seq_eq_ok.1 h
    obtain ⟨f, hf, h⟩ := Outcome.seq_eq_ok.1 h
    obtain rfl := requireFilter_eq_ok.1 hf
    obtain ⟨he, hrs⟩ := List.forall_mem_cons.1 hs
    refine built_of_buildRules hrs ?_ h
    intro r hr
    rcases List.mem_append.1 hr with hr | hr
    · exact hb r hr
    · obtain rfl := List.mem_singleton.1 hr
      exact built_of_build he ho
end

/-- Negating an expression twice makes the filter negated twice. -/
theorem build_negate_negate {e : Expr} {f : Filter} (h : e.build = .ok (.filter f)) :
    e.negate.negate.build = .ok (.filter (Filter.negate (Filter.negate f))) := by
  apply ofDelegate_eq_ok.2
  refine ⟨Filter.negate f, ?_, rfl⟩
  apply ofDelegate_eq_ok.2
  exact ⟨f, h, rfl⟩

end Expr

/-- A filter that is made without putting an inverse on top has no inverse in it whose delegate is
an inverse or a constant, and negated twice it is the same filter again. Of any filter this is true
only if its outermost inverse has no such delegate; but the answers of any filter are turned round
by one negation and come back with the second. -/
theorem double_negation :
    (∀ (e : Expr) (f : Filter), e.Simplifying → e.build = .ok (.filter f) →
      (∀ d, Occurs (inverse d) f → (∀ g, d ≠ inverse g) ∧ ∀ answer, d ≠ const answer) ∧
        e.negate.negate.build = .ok (.filter f) ∧
        Same (negate (negate f)) f ∧ (negate (negate f)).text = f.text) ∧
      (∀ f, negate (negate f) = f ↔ ∀ d, f = inverse d → Plain d) ∧
      ∀ (f : Filter) (path : String),
        ((negate f).accepts path = true ↔ f.accepts path = false) ∧
          (negate (negate f)).accepts path = f.accepts path := by
  refine ⟨?_, fun f => negate_negate_iff, ?_⟩
  · intro e f he hf
    have hreduced : Reduced f := (Expr.built_of_build he hf).reduced
    -- what is built has no inverse of an inverse or of a constant in it
    have hback : negate (negate f) = f := hreduced.negate_negate
    refine ⟨hreduced, ?_, ?_, ?_⟩
    · rw [Expr.build_negate_negate hf, hback]
    · rw [hback]
      exact same_refl f
    · rw [hback]
  · intro f path
    constructor
    · rw [accepts_negate, Bool.not_eq_true']
    · rw [accepts_negate, accepts_negate, Bool.not_not]

/-- A rule list with a negation undone, a constant turned round, and an inverse that stays. -/
def sampleNegations : Expr :=
  .rules (.bool true)
    [(.negate (.negate (.equals (.str "lib"))), .bool false),
      (.combine .all [.negate (.const true), .combine .none [.childOf (.str "lib")]], .bool true)]

/-- The filter that the expression makes. -/
def sampleNegated : Filter :=
  rules [(equals "lib", false), (allOf [const false, inverse (anyOf [children "lib/"])], true)] true

theorem simplifying_sampleNegations : sampleNegations.Simplifying := by
  apply Expr.Simplifying.rules
  intro r hr
  simp only [List.mem_cons, List.not_mem_nil, or_false] at hr
  rcases hr with rfl | rfl
  · exact .negate (.negate (.equals _))
  · apply Expr.Simplifying.combine
    intro e he
    simp only [List.mem_cons, List.not_mem_nil, or_false] at he
    rcases he with rfl | rfl
    · exact .negate (.const true)
    · apply Expr.Simplifying.combine
      intro e he
      obtain rfl := List.mem_singleton.1 he
      exact .childOf _

theorem double_negation_sampleNegations :
    sampleNegations.Simplifying ∧ sampleNegations.build = .ok (.filter sampleNegated) ∧
      Occurs (inverse (anyOf [children "lib/"])) sampleNegated ∧
      (∀ g, anyOf [children "lib/"] ≠ inverse g) ∧
      sampleNegations.negate.negate.build = .ok (.filter sampleNegated) := by
  obtain ⟨hbuilt, -, -⟩ := double_negation
  have hmade : sampleNegations.build = .ok (.filter sampleNegated) := rfl
  have hinside : Occurs (inverse (anyOf [children "lib/"])) sampleNegated := by
    refine .inside (d := allOf [const false, inverse (anyOf [children "lib/"])]) ?_
      (.inside ?_ .here)
    · exact List.mem_cons_of_mem _ List.mem_cons_self
    · exact List.mem_cons_of_mem _ List.mem_cons_self
  obtain ⟨hinverses, htwice, -, -⟩ :=
    hbuilt sampleNegations sampleNegated simplifying_sampleNegations hmade
  exact ⟨simplifying_sampleNegations, hmade, hinside, (hinverses _ hinside).1, htwice⟩

end ModulePath.Filter
