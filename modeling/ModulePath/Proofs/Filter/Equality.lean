import Mathlib.Data.List.Forall2
import ModulePath.Proofs.Filter.Delegates
import ModulePath.Proofs.Filter.Meaning
import ModulePath.Proofs.Glob.Expression

/-!
# Filters that are equal

Two filters are equal when they are built alike. Globs are compared by the sources of their
patterns, so equal filters need not have the same text. What equality says of the outermost part of
two filters is read off once (`same_iff`). By induction over filters (`Filter.induct`) it follows
that equality is an equivalence relation (`same_equivalence`) and that equal filters accept the same
paths (`accepts_eq_of_same`); by induction over what is built around a filter, that a filter may be
replaced by an equal one wherever it stands (`same_fill`).
-/

set_option autoImplicit false

namespace ModulePath

/-- A source is a regular expression of its own, so it decides which paths are matched. -/
theorem Glob.accepts_eq_of_source {p q : Glob.Pattern} (h : p.source = q.source) (path : String) :
    p.accepts path = q.accepts path := by
  apply Bool.eq_iff_iff.2
  rw [← Glob.fullMatch_source_iff, ← Glob.fullMatch_source_iff, h]

namespace Filter

variable {path : String} {f g k : Filter}

/-! ## What equality says -/

/-- Filters are equal. -/
abbrev Same (f g : Filter) : Prop := same f g = true

/-- Rules are equal: their filters are, and they have the same answer. -/
abbrev SameRule (r s : Filter × Bool) : Prop := Same r.1 s.1 ∧ r.2 = s.2

/-- Two filters have the same outermost part, and what they are made from is related by `R`. -/
inductive Alike (R : Filter → Filter → Prop) : Filter → Filter → Prop
  | const (answer : Bool) : Alike R (.const answer) (.const answer)
  | equals (path : String) : Alike R (.equals path) (.equals path)
  | children (parent : String) : Alike R (.children parent) (.children parent)
  | members (paths : TextSet) : Alike R (.members paths) (.members paths)
  | glob {p q : String}
    (h : (Glob.Pattern.ofGlob p).source = (Glob.Pattern.ofGlob q).source) :
    Alike R (.glob p) (.glob q)
  | inverse {f g : Filter} (h : R f g) : Alike R (.inverse f) (.inverse g)
  | aggregate (mode : Mode) {fs gs : List Filter} (h : List.Forall₂ R fs gs) :
    Alike R (.aggregate mode fs) (.aggregate mode gs)
  | rules {rs ss : List (Filter × Bool)} (default : Bool)
    (h : List.Forall₂ (fun r s => R r.1 s.1 ∧ r.2 = s.2) rs ss) :
    Alike R (.rules rs default) (.rules ss default)
  | probe (name : String) (answer : Bool) : Alike R (.probe name answer) (.probe name answer)

theorem sameAll_iff {fs gs : List Filter} : sameAll fs gs = true ↔ List.Forall₂ Same fs gs := by
  induction fs generalizing gs with
  | nil => cases gs <;> simp [sameAll]
  | cons f fs ih => cases gs <;> simp [sameAll, ih]

theorem sameRules_iff {rs ss : List (Filter × Bool)} :
    sameRules rs ss = true ↔ List.Forall₂ SameRule rs ss := by
  induction rs generalizing ss with
  | nil => cases ss <;> simp [sameRules]
  | cons r rs ih => cases ss <;> simp [sameRules, ih]

/-- The inversion of equality, clause by clause of its definition. -/
theorem same_iff : Same f g ↔ Alike Same f g := by
  constructor
  · intro h
    -- the cases are those of the definition, the last one being all other pairs
    unfold Same same at h
    split at h
    case h_1 a b =>
      obtain rfl := eq_of_beq h
      exact .const a
    case h_2 p q =>
      obtain rfl := eq_of_beq h
      exact .equals p
    case h_3 p q =>
      obtain rfl := eq_of_beq h
      exact .children p
    case h_4 s t =>
      obtain rfl := eq_of_beq h
      exact .members s
    case h_5 p q => exact .glob (eq_of_beq h)
    case h_6 f g => exact .inverse h
    case h_7 m fs n gs =>
      obtain ⟨hmode, hall⟩ := Bool.and_eq_true_iff.1 h
      obtain rfl := eq_of_beq hmode
      exact .aggregate m (sameAll_iff.1 hall)
    case h_8 rs a ss b =>
      obtain ⟨hall, hdefault⟩ := Bool.and_eq_true_iff.1 h
      obtain rfl := eq_of_beq hdefault
      exact .rules a (sameRules_iff.1 hall)
    case h_9 n a m b =>
      obtain ⟨hname, hanswer⟩ := Bool.and_eq_true_iff.1 h
      obtain rfl := eq_of_beq hname
      obtain rfl := eq_of_beq hanswer
      exact .probe n a
    case h_10 => cases h
  · intro h
    cases h with
    | const answer => simp [Same, same]
    | equals path => simp [Same, same]
    | children parent => simp [Same, same]
    | members paths => simp [Same, same]
    | glob h => simp [Same, same, h]
    | inverse h => simpa [Same, same] using h
    | aggregate mode h => simpa [Same, same] using sameAll_iff.2 h
    | rules default h => simpa [Same, same] using sameRules_iff.2 h
    | probe name answer => simp [Same, same]

/-! ## An equivalence relation -/

theorem same_refl (f : Filter) : Same f f := by
  apply same_iff.2
  induction f using induct with
  | hconst answer => exact .const answer
  | hequals path => exact .equals path
  | hchildren parent => exact .children parent
  | hmembers paths => exact .members paths
  | hglob pattern => exact .glob rfl
  | hinverse f ih => exact .inverse (same_iff.2 ih)
  | haggregate mode fs ih =>
    apply Alike.aggregate
    exact List.forall₂_same.2 fun f hf => same_iff.2 (ih f hf)
  | hrules rs default ih =>
    apply Alike.rules
    exact List.forall₂_same.2 fun r hr => ⟨same_iff.2 (ih r hr), rfl⟩
  | hprobe name answer => exact .probe name answer

/-- What holds of each member of the first of two lists can be used where the lists are compared. -/
theorem forall₂_of_mem {α β : Type} {R S : α → β → Prop} {as : List α} {bs : List β}
    (h : List.Forall₂ R as bs) (hRS : ∀ a ∈ as, ∀ b, R a b → S a b) : List.Forall₂ S as bs := by
  have hboth := (List.forall₂_and_left (p := fun a => ∀ b, R a b → S a b) as bs).2 ⟨hRS, h⟩
  exact hboth.imp fun a b hab => hab.1 b hab.2

/-- Equality is symmetric, by induction on the first filter. -/
theorem same_symm (h : Same f g) : Same g f := by
  induction f using induct generalizing g with
  | hconst | hequals | hchildren | hmembers | hprobe =>
    cases same_iff.1 h
    exact same_refl _
  | hglob pattern =>
    cases same_iff.1 h with
    | glob hsource => exact same_iff.2 (.glob hsource.symm)
  | hinverse f ih =>
    cases same_iff.1 h with
    | inverse hfg => exact same_iff.2 (.inverse (ih hfg))
  | haggregate mode fs ih =>
    cases same_iff.1 h with
    | aggregate _ hall =>
      have hback := forall₂_of_mem hall fun f hf g hfg => ih f hf hfg
      exact same_iff.2 (.aggregate mode hback.flip)
  | hrules rs default ih =>
    cases same_iff.1 h with
    | rules _ hall =>
      have hback := forall₂_of_mem (S := flip SameRule) hall fun r hr s hrs =>
        ⟨ih r hr hrs.1, hrs.2.symm⟩
      exact same_iff.2 (.rules default hback.flip)

/-- Two lists that are compared with the same list are compared with each other. -/
theorem forall₂_trans {α β γ : Type} {S : β → γ → Prop} {T : α → γ → Prop} {as : List α}
    {bs : List β} {cs : List γ} (h : List.Forall₂ (fun a b => ∀ c, S b c → T a c) as bs)
    (h' : List.Forall₂ S bs cs) : List.Forall₂ T as cs := by
  induction h generalizing cs with
  | nil =>
    obtain rfl := List.forall₂_nil_left_iff.1 h'
    exact .nil
  | cons hab _ ih =>
    obtain ⟨c, rest, hbc, hrest, rfl⟩ := List.forall₂_cons_left_iff.1 h'
    exact .cons (hab c hbc) (ih hrest)

/-- Equality is transitive, by induction on the first filter. -/
theorem same_trans (h : Same f g) (h' : Same g k) : Same f k := by
  induction f using induct generalizing g k with
  | hconst | hequals | hchildren | hmembers | hprobe =>
    cases same_iff.1 h
    exact h'
  | hglob pattern =>
    cases same_iff.1 h with
    | glob hfg =>
      cases same_iff.1 h' with
      | glob hgk => exact same_iff.2 (.glob (hfg.trans hgk))
  | hinverse f ih =>
    cases same_iff.1 h with
    | inverse hfg =>
      cases same_iff.1 h' with
      | inverse hgk => exact same_iff.2 (.inverse (ih hfg hgk))
  | haggregate mode fs ih =>
    cases same_iff.1 h with
    | aggregate _ hfg =>
      cases same_iff.1 h' with
      | aggregate _ hgk =>
        -- each delegate is equal to whatever its counterpart is equal to
        have hon := forall₂_of_mem hfg fun f hf g hfg k (hgk : Same g k) => ih f hf hfg hgk
        exact same_iff.2 (.aggregate mode (forall₂_trans hon hgk))
  | hrules rs default ih =>
    cases same_iff.1 h with
    | rules _ hrs =>
      cases same_iff.1 h' with
      | rules _ hst =>
        have hon : List.Forall₂ (fun r s => ∀ t, SameRule s t → SameRule r t) rs _ :=
          forall₂_of_mem hrs fun r hr s hrs t hst => ⟨ih r hr hrs.1 hst.1, hrs.2.trans hst.2⟩
        exact same_iff.2 (.rules default (forall₂_trans hon hst))

theorem same_equivalence : Equivalence Same := ⟨same_refl, same_symm, same_trans⟩

/-! ## Equal filters decide alike -/

/-- What several filters decide depends on their answers only. -/
theorem decideFirst_congr {dominant : Bool} {fs gs : List Filter}
    (h : List.Forall₂ (fun f g => f.accepts path = g.accepts path) fs gs) :
    decideFirst path dominant fs = decideFirst path dominant gs := by
  induction h with
  | nil => rfl
  | cons hfg _ ih => rw [decideFirst, decideFirst, hfg, ih]

/-- What the first rule says depends on the answers of the filters only. -/
theorem firstRule_congr {default : Bool} {rs ss : List (Filter × Bool)}
    (h : List.Forall₂ (fun r s => r.1.accepts path = s.1.accepts path ∧ r.2 = s.2) rs ss) :
    firstRule path rs default = firstRule path ss default := by
  induction h with
  | nil => rfl
  | cons hrs _ ih => rw [firstRule, firstRule, hrs.1, hrs.2, ih]

/-- Equal filters accept the same paths. -/
theorem accepts_eq_of_same (h : Same f g) : f.accepts path = g.accepts path := by
  induction f using induct generalizing g with
  | hconst | hequals | hchildren | hmembers | hprobe =>
    cases same_iff.1 h
    rfl
  | hglob pattern =>
    cases same_iff.1 h with
    | glob hsource =>
      rw [accepts, accepts]
      exact Glob.accepts_eq_of_source hsource path
  | hinverse f ih =>
    cases same_iff.1 h with
    | inverse hfg => rw [accepts, accepts, ih hfg]
  | haggregate mode fs ih =>
    cases same_iff.1 h with
    | aggregate _ hall =>
      rw [accepts, accepts]
      apply decideFirst_congr
      exact forall₂_of_mem hall fun f hf g hfg => ih f hf hfg
  | hrules rs default ih =>
    cases same_iff.1 h with
    | rules _ hall =>
      rw [accepts, accepts]
      apply firstRule_congr
      exact forall₂_of_mem hall fun r hr s hrs => ⟨ih r hr hrs.1, hrs.2⟩

/-! ## Equal parts make equal filters -/

/-- The simplifications of the inverse look at the outermost part only, where equal filters are the
same. -/
theorem same_negate (h : Same f g) : Same (negate f) (negate g) := by
  cases same_iff.1 h with
  | const answer => exact same_refl _
  | inverse hfg => exact hfg
  | equals | children | members | glob | aggregate | rules | probe => exact same_iff.2 (.inverse h)

/-- Equal filters are combined to equal ones. -/
theorem same_combine {mode : Combine} {fs gs : List Filter} (h : List.Forall₂ Same fs gs) :
    Same (mode.of fs) (mode.of gs) := by
  have haggregate (m : Mode) : Same (aggregate m fs) (aggregate m gs) :=
    same_iff.2 (.aggregate m h)
  cases mode with
  | any => exact haggregate .any
  | all => exact haggregate .all
  | none => exact same_negate (haggregate .any)

/-- Equal rules make equal rule lists; there are none on the one side only if there are none on the
other. -/
theorem same_create {default : Bool} {rs ss : List (Filter × Bool)}
    (h : List.Forall₂ SameRule rs ss) :
    Same (Builder.create ⟨default, rs⟩) (Builder.create ⟨default, ss⟩) := by
  cases h with
  | nil => exact same_refl _
  | cons hrs hrest => exact same_iff.2 (.rules default (.cons hrs hrest))

/-! ## Filters around a filter -/

/-- A filter expression with a place for a filter in it. -/
inductive Surrounding where
  | hole
  | negate (inner : Surrounding)
  /-- The filter is among the delegates of an aggregate. -/
  | combine (mode : Combine) (before : List Filter) (inner : Surrounding) (after : List Filter)
  /-- The filter is that of a rule in a list of rules. -/
  | rules (default : Bool) (before : List (Filter × Bool)) (inner : Surrounding) (answer : Bool)
    (after : List (Filter × Bool))

/-- The filter of an expression with `f` in its place. -/
def Surrounding.fill (f : Filter) : Surrounding → Filter
  | hole => f
  | negate inner => Filter.negate (inner.fill f)
  | combine mode before inner after => mode.of (before ++ inner.fill f :: after)
  | rules default before inner answer after =>
    ((Builder.new default).addAll (before ++ (inner.fill f, answer) :: after)).create

/-- Two lists that differ in one place are compared there. -/
theorem forall₂_around {α : Type} {R : α → α → Prop} {a b : α} (hrefl : ∀ c, R c c) (h : R a b)
    (before after : List α) : List.Forall₂ R (before ++ a :: after) (before ++ b :: after) := by
  have hself (cs : List α) : List.Forall₂ R cs cs := List.forall₂_same.2 fun c _ => hrefl c
  exact List.rel_append (hself before) (.cons h (hself after))

/-- A filter may be replaced by an equal one, however deep it stands. -/
theorem same_fill (around : Surrounding) (h : Same f g) : Same (around.fill f) (around.fill g) := by
  induction around with
  | hole => exact h
  | negate inner ih => exact same_negate ih
  | combine mode before inner after ih =>
    apply same_combine
    exact forall₂_around same_refl ih before after
  | rules default before inner answer after ih =>
    apply same_create
    have hself (r : Filter × Bool) : SameRule r r := ⟨same_refl r.1, rfl⟩
    have hfill : SameRule (inner.fill f, answer) (inner.fill g, answer) := ⟨ih, rfl⟩
    exact forall₂_around hself hfill before after

/-- Equal filters accept the same paths, equality is an equivalence relation, and it is kept by
every expression around a filter, although equal filters can have different texts. -/
theorem equal_filters_agree :
    (∀ f g : Filter, Same f g → ∀ path, f.accepts path = g.accepts path) ∧
      Equivalence Same ∧
      (∀ (around : Surrounding) (f g : Filter), Same f g → Same (around.fill f) (around.fill g)) ∧
      ∃ p q : String, Same (glob p) (glob q) ∧ (glob p).text ≠ (glob q).text := by
  refine ⟨fun f g h path => accepts_eq_of_same h, same_equivalence, ?_, "a//b", "a/b", ?_, ?_⟩
  · intro around f g h
    exact same_fill around h
  · exact same_iff.2 (.glob (by decide +kernel))
  · decide +kernel

/-- A rule list with a rule for what is neither below a directory nor in the place. -/
def sampleSurrounding : Surrounding :=
  .rules true [(equals "lib/api", true)] (.combine .none [childOf "lib"] .hole []) false []

/-- Two spellings of a glob, alone and deep inside a rule list. -/
theorem same_sampleGlobs :
    Same (glob "a//b") (glob "a/b") ∧
      Same (sampleSurrounding.fill (glob "a//b")) (sampleSurrounding.fill (glob "a/b")) ∧
      (∀ path, (sampleSurrounding.fill (glob "a//b")).accepts path =
        (sampleSurrounding.fill (glob "a/b")).accepts path) ∧
      (sampleSurrounding.fill (glob "a//b")).text ≠ (sampleSurrounding.fill (glob "a/b")).text := by
  obtain ⟨hagree, -, hfill, -⟩ := equal_filters_agree
  have hglobs : Same (glob "a//b") (glob "a/b") := by decide +kernel
  have hdeep := hfill sampleSurrounding _ _ hglobs
  exact ⟨hglobs, hdeep, hagree _ _ hdeep, by decide +kernel⟩

end Filter

end ModulePath
