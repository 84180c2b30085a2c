import Mathlib.Logic.Relation
import ModulePath.Proofs.Filter.Equality

/-!
# Changes of a rule list that change no answer

The first rule that applies answers, so the order of the rules matters, and with it what stands
before and behind a rule. Four changes are harmless wherever they are made (`Rewrites`). Each of
them is a statement about a part of the list: what the part answers for any answer of the rules
behind it (`firstRule_append`). By induction over a chain of such changes, made in either direction,
two rule lists answer alike (`rewritten_rules_answer_alike`).
-/

set_option autoImplicit false

namespace ModulePath.Filter

variable {path : String} {f g : Filter} {answer default : Bool}

/-- A change of a rule list with the given default. -/
inductive Rewrites (default : Bool) : List (Filter × Bool) → List (Filter × Bool) → Prop
  /-- Two adjacent rules with the same answer change places. -/
  | exchange (before after : List (Filter × Bool)) (f g : Filter) (answer : Bool) :
    Rewrites default (before ++ (f, answer) :: (g, answer) :: after)
      (before ++ (g, answer) :: (f, answer) :: after)
  /-- Adjacent rules with the same answer become one rule. -/
  | join (before : List (Filter × Bool)) (fs : List Filter) (answer : Bool)
    (after : List (Filter × Bool)) :
    Rewrites default (before ++ fs.map (·, answer) ++ after) (before ++ (anyOf fs, answer) :: after)
  /-- Rules at the end that answer as the default does are left out. -/
  | dropTrailing (rs : List (Filter × Bool)) (fs : List Filter) :
    Rewrites default (rs ++ fs.map (·, default)) rs
  /-- A rule is left out whose filter equals that of an earlier rule. -/
  | dropRepeated (before between after : List (Filter × Bool)) {f g : Filter} (a b : Bool)
    (h : Same f g) :
    Rewrites default (before ++ (f, a) :: (between ++ (g, b) :: after))
      (before ++ (f, a) :: (between ++ after))

/-! ## Parts of a rule list -/

theorem firstRule_of_accepts {rs : List (Filter × Bool)} (h : f.accepts path = true) :
    firstRule path ((f, answer) :: rs) default = answer := by
  rw [firstRule, if_pos h]

theorem firstRule_of_rejects {rs : List (Filter × Bool)} (h : f.accepts path = false) :
    firstRule path ((f, answer) :: rs) default = firstRule path rs default := by
  rw [firstRule, if_neg (Bool.eq_false_iff.1 h)]

/-- Rules with the same answer give it when one of them applies. -/
theorem firstRule_map (fs : List Filter) (answer default : Bool) :
    firstRule path (fs.map (·, answer)) default =
      if (anyOf fs).accepts path then answer else default := by
  induction fs with
  | nil => simp [firstRule, anyOf, accepts, decideFirst, Mode.dominant]
  | cons f fs ih =>
    rw [List.map_cons]
    cases hf : f.accepts path with
    | true =>
      have hany : (anyOf (f :: fs)).accepts path = true :=
        accepts_anyOf.2 ⟨f, List.mem_cons_self, hf⟩
      rw [firstRule_of_accepts hf, if_pos hany]
    | false =>
      have hany : (anyOf (f :: fs)).accepts path = (anyOf fs).accepts path := by
        simp [anyOf, accepts, decideFirst, hf, Mode.dominant]
      rw [firstRule_of_rejects hf, ih, hany]

/-! ## One change -/

/-- Neighbouring rules with the same answer may change places. -/
theorem firstRule_exchange (rs : List (Filter × Bool)) (f g : Filter) (answer default : Bool) :
    firstRule path ((f, answer) :: (g, answer) :: rs) default =
      firstRule path ((g, answer) :: (f, answer) :: rs) default := by
  simp only [firstRule]
  cases f.accepts path <;> cases g.accepts path <;> rfl

/-- Rules with the same answer are one rule for any of their filters. -/
theorem firstRule_join (fs : List Filter) (rs : List (Filter × Bool)) (answer default : Bool) :
    firstRule path (fs.map (·, answer) ++ rs) default =
      firstRule path ((anyOf fs, answer) :: rs) default := by
  rw [firstRule_append, firstRule_map, firstRule]

/-- Last rules that answer with the default may be left out. -/
theorem firstRule_dropTrailing (fs : List Filter) (default : Bool) :
    firstRule path (fs.map (·, default)) default = default := by
  rw [firstRule_map, ite_self]

/-- Where the later rule is reached, the earlier one has not applied, so neither does the later. -/
theorem firstRule_dropRepeated (between after : List (Filter × Bool)) (a b default : Bool)
    (h : Same f g) :
    firstRule path ((f, a) :: (between ++ (g, b) :: after)) default =
      firstRule path ((f, a) :: (between ++ after)) default := by
  cases hf : f.accepts path with
  | true => rw [firstRule_of_accepts hf, firstRule_of_accepts hf]
  | false =>
    have hg : g.accepts path = false := by rw [← accepts_eq_of_same h, hf]
    rw [firstRule_of_rejects hf, firstRule_of_rejects hf, firstRule_append, firstRule_append,
      firstRule_of_rejects hg]

/-- A change leaves the rules before it alone, so it is enough to look at what comes after them. -/
theorem firstRule_of_rewrites {rs ss : List (Filter × Bool)} (h : Rewrites default rs ss) :
    firstRule path rs default = firstRule path ss default := by
  cases h with
  | exchange before after f g answer =>
    rw [firstRule_append, firstRule_append, firstRule_exchange]
  | join before fs answer after =>
    rw [List.append_assoc, firstRule_append before, firstRule_append before, firstRule_join]
  | dropTrailing rs fs => rw [firstRule_append, firstRule_dropTrailing]
  | dropRepeated before between after a b h =>
    rw [firstRule_append, firstRule_append, firstRule_dropRepeated between after a b default h]

/-! ## Chains of changes -/

/-- Rule lists that are rewritten into each other, step by step and in either direction, accept the
same paths. -/
theorem rewritten_rules_answer_alike {rs ss : List (Filter × Bool)}
    (h : Relation.EqvGen (Rewrites default) rs ss) (path : String) :
    (rules rs default).accepts path = (rules ss default).accepts path := by
  rw [accepts, accepts]
  induction h with
  | rel _ _ hstep => exact firstRule_of_rewrites hstep
  | refl _ => rfl
  | symm _ _ _ ih => exact ih.symm
  | trans _ _ _ _ _ ih ih' => exact ih.trans ih'

/-- Two spellings of a glob around two rules that exclude, and two rules at the end that the default
makes idle. -/
def sampleRules : List (Filter × Bool) :=
  [(glob "lib//*", true), (equals "doc", false), (childOf "doc", false), (glob "lib/*", false),
    (equals "bin", true), (childOf "bin", true)]

/-- The rules that are left. -/
def sampleRewritten : List (Filter × Bool) :=
  [(glob "lib//*", true), (anyOf [childOf "doc", equals "doc"], false)]

theorem rewritten_rules_sample :
    Relation.EqvGen (Rewrites true) sampleRules sampleRewritten ∧
      (rules sampleRules true).accepts "doc/index" =
        (rules sampleRewritten true).accepts "doc/index" ∧
      (rules sampleRewritten true).accepts "doc/index" = false := by
  have hglobs : Same (glob "lib//*") (glob "lib/*") := by decide +kernel
  have hchain : Relation.EqvGen (Rewrites true) sampleRules sampleRewritten := by
    refine .trans _ _ _
      (.rel _ _ (.dropTrailing (sampleRules.take 4) [equals "bin", childOf "bin"]))
      (.trans _ _ _ (.rel _ _ (.dropRepeated [] [(equals "doc", false), (childOf "doc", false)] []
        true false hglobs)) ?_)
    refine .trans _ _ _ (.rel _ _ (.exchange [(glob "lib//*", true)] [] _ _ false))
      (.rel _ _ (.join [(glob "lib//*", true)] [childOf "doc", equals "doc"] false []))
  exact ⟨hchain, rewritten_rules_answer_alike hchain "doc/index", by decide +kernel⟩

/-- Rules with different answers may not change places if a path can reach both. -/
example : (rules [(equals "a", true), (glob "a", false)] false).accepts "a" = true ∧
    (rules [(glob "a", false), (equals "a", true)] false).accepts "a" = false := by
  decide +kernel

end ModulePath.Filter
