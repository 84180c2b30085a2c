import Mathlib.Logic.Relation
import ModulePath.Filter.Consult
import ModulePath.Proofs.Filter.Equality

/-!
# Which delegates are asked

To answer about a path a filter asks its delegates, and these ask theirs. `call` keeps the record of
it: a tree of calls, made by the same loops that decide, in which a call is there only if it was
made. The answer of the tree is the answer of the filter (`answer_call`) and its leaves are the
leaves that are consulted (`leaves_call`).

What a call does with the delegates is said once (`inTurn_call`): they are asked from the first to
the last, each once, and no further than the first one that decides. So what stands behind a
delegate that decides is as good as absent, however deep it stands (`ChangesUnasked`).
-/

set_option autoImplicit false

namespace ModulePath.Filter

variable {path : String} {f g : Filter}

/-! ## Calls -/

/-- A call of a filter: the filter that is asked, its answer, and the calls it makes for that. -/
structure Call where
  asked : Filter
  answer : Bool
  made : List Call

mutual
/-- The call of a filter about a path. -/
def call (path : String) : Filter → Call
  | inverse delegate =>
    let c := call path delegate
    ⟨inverse delegate, !c.answer, [c]⟩
  | aggregate mode fs =>
    let r := callUntil path mode.dominant fs
    ⟨aggregate mode fs, r.1, r.2⟩
  | rules rs default =>
    let r := callRules path rs default
    ⟨rules rs default, r.1, r.2⟩
  | leaf => ⟨leaf, leaf.accepts path, []⟩
/-- The answer of an aggregate, with the calls made until a delegate gives the dominant answer. -/
def callUntil (path : String) (dominant : Bool) : List Filter → Bool × List Call
  | [] => (!dominant, [])
  | f :: fs =>
    let c := call path f
    if c.answer == dominant then (dominant, [c])
    else
      let r := callUntil path dominant fs
      (r.1, c :: r.2)
/-- The answer of a rule list, with the calls made until a rule applies. -/
def callRules (path : String) : List (Filter × Bool) → Bool → Bool × List Call
  | [], default => (default, [])
  | (f, answer) :: rs, default =>
    let c := call path f
    if c.answer then (answer, [c])
    else
      let r := callRules path rs default
      (r.1, c :: r.2)
end

mutual
/-- The leaves that are asked in a call, in order. -/
def Call.leaves : Call → List Filter
  | ⟨f, _, made⟩ => if f.isLeaf then [f] else leavesOf made
/-- The leaves that are asked in calls one after another. -/
def Call.leavesOf : List Call → List Filter
  | [] => []
  | c :: cs => c.leaves ++ leavesOf cs
end

theorem asked_call (f : Filter) : (call path f).asked = f := by
  cases f with
  | inverse | aggregate | rules => rw [call]
  | const | equals | children | members | glob | probe => rfl

mutual
/-- The tree has the answer of the filter, loop by loop. -/
theorem answer_call : ∀ f : Filter, (call path f).answer = f.accepts path
  | inverse delegate => by
    rw [call, accepts, answer_call delegate]
  | aggregate mode fs => by
    rw [call, accepts, fst_callUntil fs]
  | rules rs default => by
    rw [call, accepts, fst_callRules rs default]
  | const _ | equals _ | children _ | members _ | glob _ | probe _ _ => rfl
/-- The calls of delegates answer as the delegates decide. -/
theorem fst_callUntil {dominant : Bool} : ∀ fs : List Filter,
    (callUntil path dominant fs).1 = decideFirst path dominant fs
  | [] => rfl
  | f :: fs => by
    rw [callUntil, decideFirst, answer_call f, ← fst_callUntil fs]
    split <;> rfl
/-- The calls of rules answer as the first rule does. -/
theorem fst_callRules : ∀ (rs : List (Filter × Bool)) (default : Bool),
    (callRules path rs default).1 = firstRule path rs default
  | [], _ => rfl
  | (f, answer) :: rs, default => by
    rw [callRules, firstRule, answer_call f, ← fst_callRules rs default]
    split <;> rfl
end

mutual
/-- The leaves of the tree are the leaves that are consulted, loop by loop. -/
theorem leaves_call : ∀ f : Filter, (call path f).leaves = f.consulted path
  | inverse delegate => by
    rw [call, consulted, ← leaves_call delegate]
    simp [Call.leaves, Call.leavesOf, isLeaf]
  | aggregate mode fs => by
    rw [call, consulted, ← leavesOf_callUntil fs]
    simp [Call.leaves, isLeaf]
  | rules rs default => by
    rw [call, consulted, ← leavesOf_callRules rs default]
    simp [Call.leaves, isLeaf]
  | const _ | equals _ | children _ | members _ | glob _ | probe _ _ => rfl
theorem leavesOf_callUntil {dominant : Bool} : ∀ fs : List Filter,
    Call.leavesOf (callUntil path dominant fs).2 = consultedUntil path dominant fs
  | [] => rfl
  | f :: fs => by
    rw [callUntil, consultedUntil, answer_call f, ← leaves_call f, ← leavesOf_callUntil fs]
    split <;> simp [Call.leavesOf]
theorem leavesOf_callRules : ∀ (rs : List (Filter × Bool)) (default : Bool),
    Call.leavesOf (callRules path rs default).2 = consultedRules path rs
  | [], _ => rfl
  | (f, answer) :: rs, default => by
    rw [callRules, consultedRules, answer_call f, ← leaves_call f, ← leavesOf_callRules rs default]
    split <;> simp [Call.leavesOf]
end

/-! ## Delegates in turn -/

/-- The answer that decides a filter as soon as one of its delegates gives it. The only delegate of
an inverse is asked in any case. -/
def decisive? : Filter → Option Bool
  | aggregate mode _ => some mode.dominant
  | rules _ _ => some true
  | _ => none

/-- Delegates are asked from the first one on, until one gives the decisive answer. -/
inductive InTurn (path : String) (decisive : Option Bool) : List Filter → List Call → Prop
  | done : InTurn path decisive [] []
  | decided {f : Filter} (fs : List Filter) (h : decisive = some (f.accepts path)) :
    InTurn path decisive (f :: fs) [call path f]
  | undecided {f : Filter} {fs : List Filter} {cs : List Call}
    (h : decisive ≠ some (f.accepts path)) (hrest : InTurn path decisive fs cs) :
    InTurn path decisive (f :: fs) (call path f :: cs)

/-- Delegates are called in turn until one decides. -/
theorem inTurn_callUntil (dominant : Bool) (fs : List Filter) :
    InTurn path (some dominant) fs (callUntil path dominant fs).2 := by
  induction fs with
  | nil => exact .done
  | cons f fs ih =>
    rw [callUntil, answer_call]
    split
    · next h =>
      apply InTurn.decided
      rw [eq_of_beq h]
    · next h =>
      apply InTurn.undecided _ ih
      rintro hdominant
      exact h (beq_iff_eq.2 (Option.some.inj hdominant).symm)

/-- The filters of rules are called in turn until one accepts. -/
theorem inTurn_callRules (rs : List (Filter × Bool)) (default : Bool) :
    InTurn path (some true) (rs.map Prod.fst) (callRules path rs default).2 := by
  induction rs with
  | nil => exact .done
  | cons r rs ih =>
    obtain ⟨f, answer⟩ := r
    rw [callRules, answer_call, List.map_cons]
    split
    · next h =>
      apply InTurn.decided
      rw [h]
    · next h =>
      apply InTurn.undecided _ ih
      intro haccepts
      exact h (Option.some.inj haccepts).symm

/-- What a filter does with its delegates. -/
theorem inTurn_call (f : Filter) : InTurn path f.decisive? f.delegates (call path f).made := by
  cases f with
  | inverse delegate =>
    rw [call]
    exact .undecided nofun .done
  | aggregate mode fs =>
    rw [call]
    exact inTurn_callUntil mode.dominant fs
  | rules rs default =>
    rw [call]
    exact inTurn_callRules rs default
  | const | equals | children | members | glob | probe => exact .done

/-- Either there is a first delegate that decides, and the ones up to it are asked, or none decides
and all are. -/
theorem InTurn.cases {decisive : Option Bool} {fs : List Filter} {cs : List Call}
    (h : InTurn path decisive fs cs) :
    (∃ before d after, fs = before ++ d :: after ∧ cs = (before ++ [d]).map (call path) ∧
      (∀ b ∈ before, decisive ≠ some (b.accepts path)) ∧ decisive = some (d.accepts path)) ∨
      cs = fs.map (call path) ∧ ∀ d ∈ fs, decisive ≠ some (d.accepts path) := by
  induction h with
  | done => exact .inr ⟨rfl, List.forall_mem_nil _⟩
  | @decided f fs h => exact .inl ⟨[], f, fs, rfl, rfl, List.forall_mem_nil _, h⟩
  | @undecided f fs cs h _ ih =>
    rcases ih with ⟨before, d, after, rfl, rfl, hbefore, hd⟩ | ⟨rfl, hall⟩
    · exact .inl ⟨f :: before, d, after, rfl, rfl, List.forall_mem_cons.2 ⟨h, hbefore⟩, hd⟩
    · exact .inr ⟨rfl, List.forall_mem_cons.2 ⟨h, hall⟩⟩

/-! ## What is not asked -/

/-- A filter is changed behind a delegate that decides, somewhere in it. -/
inductive ChangesUnasked (path : String) : Filter → Filter → Prop
  /-- The delegates behind one with the dominant answer are replaced. -/
  | behindDelegate (mode : Mode) (before : List Filter) {d : Filter} (after after' : List Filter)
    (h : d.accepts path = mode.dominant) :
    ChangesUnasked path (aggregate mode (before ++ d :: after))
      (aggregate mode (before ++ d :: after'))
  /-- The rules behind one that applies are replaced, and the default. -/
  | behindRule (before : List (Filter × Bool)) {d : Filter} (answer : Bool)
    (after after' : List (Filter × Bool)) (default default' : Bool) (h : d.accepts path = true) :
    ChangesUnasked path (rules (before ++ (d, answer) :: after) default)
      (rules (before ++ (d, answer) :: after') default')
  | inInverse {f g : Filter} (h : ChangesUnasked path f g) :
    ChangesUnasked path (inverse f) (inverse g)
  | inAggregate (mode : Mode) (before : List Filter) {f g : Filter} (after : List Filter)
    (h : ChangesUnasked path f g) :
    ChangesUnasked path (aggregate mode (before ++ f :: after))
      (aggregate mode (before ++ g :: after))
  | inRules (before : List (Filter × Bool)) {f g : Filter} (answer : Bool)
    (after : List (Filter × Bool)) (default : Bool) (h : ChangesUnasked path f g) :
    ChangesUnasked path (rules (before ++ (f, answer) :: after) default)
      (rules (before ++ (g, answer) :: after) default)

/-- Two filters have the same answer and ask the same leaves for it. -/
def RunsAlike (path : String) (f g : Filter) : Prop :=
  f.accepts path = g.accepts path ∧ f.consulted path = g.consulted path

/-- What stands after a delegate that decides makes no difference. -/
theorem decideFirst_of_decided {dominant : Bool} (before : List Filter) {d : Filter}
    (after : List Filter) (h : d.accepts path = dominant) :
    decideFirst path dominant (before ++ d :: after) = dominant := by
  induction before with
  | nil => rw [List.nil_append, decideFirst, if_pos (beq_iff_eq.2 h)]
  | cons f before ih => rw [List.cons_append, decideFirst, ih, ite_self]

/-- What stands after a delegate that decides is not asked. -/
theorem consultedUntil_of_decided {dominant : Bool} (before : List Filter) {d : Filter}
    (after : List Filter) (h : d.accepts path = dominant) :
    consultedUntil path dominant (before ++ d :: after) =
      consultedUntil path dominant (before ++ [d]) := by
  induction before with
  | nil =>
    rw [List.nil_append, List.nil_append, consultedUntil, consultedUntil, if_pos (beq_iff_eq.2 h),
      if_pos (beq_iff_eq.2 h)]
  | cons f before ih =>
    rw [List.cons_append, List.cons_append, consultedUntil, consultedUntil, ih]

/-- What stands after a rule that applies makes no difference. -/
theorem firstRule_of_decided (before : List (Filter × Bool)) {d : Filter} (answer : Bool)
    (after : List (Filter × Bool)) (default : Bool) (h : d.accepts path = true) :
    firstRule path (before ++ (d, answer) :: after) default = firstRule path before answer := by
  rw [firstRule_append, firstRule, if_pos h]

/-- What stands after a rule that applies is not asked. -/
theorem consultedRules_of_decided (before : List (Filter × Bool)) {d : Filter} (answer : Bool)
    (after : List (Filter × Bool)) (h : d.accepts path = true) :
    consultedRules path (before ++ (d, answer) :: after) =
      consultedRules path (before ++ [(d, answer)]) := by
  induction before with
  | nil =>
    rw [List.nil_append, List.nil_append, consultedRules, consultedRules, if_pos h, if_pos h]
  | cons r before ih =>
    rw [List.cons_append, List.cons_append, consultedRules, consultedRules, ih]

/-- Delegates that run alike ask the same leaves. -/
theorem consultedUntil_congr {dominant : Bool} {fs gs : List Filter}
    (h : List.Forall₂ (RunsAlike path) fs gs) :
    consultedUntil path dominant fs = consultedUntil path dominant gs := by
  induction h with
  | nil => rfl
  | cons hfg _ ih => rw [consultedUntil, consultedUntil, hfg.1, hfg.2, ih]

theorem consultedRules_congr {rs ss : List (Filter × Bool)}
    (h : List.Forall₂ (fun r s => RunsAlike path r.1 s.1 ∧ r.2 = s.2) rs ss) :
    consultedRules path rs = consultedRules path ss := by
  induction h with
  | nil => rfl
  | cons hrs _ ih => rw [consultedRules, consultedRules, hrs.1.1, hrs.1.2, ih]

theorem runsAlike_refl (f : Filter) : RunsAlike path f f := ⟨rfl, rfl⟩

theorem RunsAlike.inverse (h : RunsAlike path f g) : RunsAlike path (inverse f) (inverse g) := by
  constructor
  · rw [accepts, accepts, h.1]
  · rw [consulted, consulted, h.2]

/-- Combinations of filters that run alike run alike. -/
theorem runsAlike_aggregate {mode : Mode} {fs gs : List Filter}
    (h : List.Forall₂ (RunsAlike path) fs gs) :
    RunsAlike path (aggregate mode fs) (aggregate mode gs) := by
  constructor
  · rw [accepts, accepts]
    exact decideFirst_congr (h.imp fun _ _ hfg => hfg.1)
  · rw [consulted, consulted]
    exact consultedUntil_congr h

/-- Rules with filters that run alike run alike. -/
theorem runsAlike_rules {rs ss : List (Filter × Bool)} {default : Bool}
    (h : List.Forall₂ (fun r s => RunsAlike path r.1 s.1 ∧ r.2 = s.2) rs ss) :
    RunsAlike path (rules rs default) (rules ss default) := by
  constructor
  · rw [accepts, accepts]
    exact firstRule_congr (h.imp fun _ _ hrs => ⟨hrs.1.1, hrs.2⟩)
  · rw [consulted, consulted]
    exact consultedRules_congr h

/-- One change, by induction on where it is made. -/
theorem ChangesUnasked.runsAlike (h : ChangesUnasked path f g) : RunsAlike path f g := by
  induction h with
  | behindDelegate mode before after after' h =>
    constructor
    -- the change is behind a delegate that decides
    · rw [accepts, accepts, decideFirst_of_decided before after h,
        decideFirst_of_decided before after' h]
    · rw [consulted, consulted, consultedUntil_of_decided before after h,
        consultedUntil_of_decided before after' h]
  | behindRule before answer after after' default default' h =>
    constructor
    · rw [accepts, accepts, firstRule_of_decided before answer after default h,
        firstRule_of_decided before answer after' default' h]
    · rw [consulted, consulted, consultedRules_of_decided before answer after h,
        consultedRules_of_decided before answer after' h]
  | inInverse _ ih => exact ih.inverse
  | inAggregate mode before after _ ih =>
    apply runsAlike_aggregate
    exact forall₂_around runsAlike_refl ih before after
  | @inRules before f g answer after default _ ih =>
    apply runsAlike_rules
    have hself (r : Filter × Bool) : RunsAlike path r.1 r.1 ∧ r.2 = r.2 :=
      ⟨runsAlike_refl r.1, rfl⟩
    exact forall₂_around (a := (f, answer)) (b := (g, answer)) hself ⟨ih, rfl⟩ before after

/-- Any number of changes, each at a place that the filter before it does not ask. -/
theorem runsAlike_of_changes (h : Relation.ReflTransGen (ChangesUnasked path) f g) :
    RunsAlike path f g := by
  induction h with
  | refl => exact runsAlike_refl f
  | tail _ hstep ih => exact ⟨ih.1.trans hstep.runsAlike.1, ih.2.trans hstep.runsAlike.2⟩

/-- Every filter asks its delegates in order, each at most once, up to the first whose answer
decides it, and all of them if none does. The calls that are made for this have the answer of the
filter, and their leaves are the leaves that are consulted. What stands behind a deciding
delegate anywhere in a filter can be replaced without changing the answer or the leaves that are
consulted. -/
theorem delegates_asked_until_decided (path : String) :
    (∀ f : Filter,
      (call path f).asked = f ∧ (call path f).answer = f.accepts path ∧
        (call path f).leaves = f.consulted path ∧
        ((∃ before d after, f.delegates = before ++ d :: after ∧
            (call path f).made = (before ++ [d]).map (call path) ∧
            (∀ b ∈ before, f.decisive? ≠ some (b.accepts path)) ∧
            f.decisive? = some (d.accepts path)) ∨
          (call path f).made = f.delegates.map (call path) ∧
            ∀ d ∈ f.delegates, f.decisive? ≠ some (d.accepts path))) ∧
      ∀ f g : Filter, Relation.ReflTransGen (ChangesUnasked path) f g →
        f.accepts path = g.accepts path ∧ f.consulted path = g.consulted path := by
  constructor
  · intro f
    exact ⟨asked_call f, answer_call f, leaves_call f, (inTurn_call f).cases⟩
  · intro f g h
    exact runsAlike_of_changes h

/-- Two rules that do not apply: the first one is decided by `b`, the second one by `e`. -/
def sampleTree (behind : List Filter) : Filter :=
  rules [(allOf [probe "a" true, probe "b" false, probe "c" true], true),
    (inverse (anyOf (probe "d" false :: probe "e" true :: behind)), false)] true

/-- What stands behind `e` is asked no more than `c` is, and may as well be left out. -/
theorem delegates_asked_sampleTree :
    Relation.ReflTransGen (ChangesUnasked "x") (sampleTree [probe "f" true]) (sampleTree []) ∧
      (sampleTree [probe "f" true]).accepts "x" = (sampleTree []).accepts "x" ∧
      (sampleTree [probe "f" true]).consulted "x" = (sampleTree []).consulted "x" ∧
      (sampleTree []).consultedProbes "x" = ["a", "b", "d", "e"] := by
  obtain ⟨-, hunasked⟩ := delegates_asked_until_decided "x"
  have hbehind : ChangesUnasked "x" (anyOf [probe "d" false, probe "e" true, probe "f" true])
      (anyOf [probe "d" false, probe "e" true]) :=
    .behindDelegate .any [probe "d" false] [probe "f" true] [] rfl
  have hchange : Relation.ReflTransGen (ChangesUnasked "x") (sampleTree [probe "f" true])
      (sampleTree []) :=
    .single (.inRules [_] false [] true (.inInverse hbehind))
  obtain ⟨hanswer, hconsulted⟩ := hunasked _ _ hchange
  exact ⟨hchange, hanswer, hconsulted, by decide +kernel⟩

end ModulePath.Filter
