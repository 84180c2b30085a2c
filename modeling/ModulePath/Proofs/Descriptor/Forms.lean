import ModulePath.Proofs.Descriptor.Writing
import ModulePath.Proofs.Value.Dictionary

/-!
# The two forms of a rule

A rule stands in its short form, its argument directly under its kind, or in its long form, with the
argument as the only attribute of a dictionary. Whatever the argument is, unless it is a dictionary
itself, the two are read alike (`rule?_forms`): they give the same rule or are refused with the same
error. The one other ending is that of a refusal that has to quote a number too long to be written,
and which arguments lead there is said exactly (`Unquotable`). A set of paths is told by its members
alone, and a rule that was read is read again from whatever writes it out.
-/

set_option autoImplicit false

namespace ModulePath.Descriptor

variable {α β : Type} {U : Prop} {kind : Rule.Kind} {v w : Value} {key : String}

/-! ## Forms and arguments -/

/-- The attribute of the long form. -/
def argumentName (kind : Rule.Kind) : String := if kind.isSet then "paths" else "path"

/-- The argument stands under the kind. -/
def shortForm (kind : Rule.Kind) (v : Value) : Value := .dict [(.str kind.text, v)]

/-- The argument stands under its own name. -/
def longForm (kind : Rule.Kind) (v : Value) : Value :=
  .dict [(.str kind.text, .dict [(.str (argumentName kind), v)])]

/-- The argument is refused, and what the refusal quotes cannot be written. A collection is refused
for its first member that is no rule path, and only this member is quoted. -/
inductive Unquotable : Rule.Kind → Value → Prop
  | path {kind : Rule.Kind} {v : Value} (hkind : kind.isSet = false) (h : v.hasText = false) :
    Unquotable kind v
  | collection {kind : Rule.Kind} {v : Value} (hkind : kind.isSet = true)
    (hv : ∀ items, ¬ IsCollectionOf items v) (h : v.hasText = false) : Unquotable kind v
  | member {kind : Rule.Kind} {v x : Value} {before after : List Value} (hkind : kind.isSet = true)
    (hv : IsCollectionOf (before ++ x :: after) v) (hbefore : ∀ y ∈ before, IsRulePath y)
    (h : x.hasText = false) : Unquotable kind v

/-- No dictionary is a collection of paths. -/
theorem IsCollectionOf.not_isDict {items : List Value} (h : IsCollectionOf items v) :
    ¬ v.IsDict := by
  rintro ⟨entries, rfl⟩
  rcases h with h | h | h <;> cases h

/-- A set is told by its members. -/
theorem ofList_eq_ofList_iff {ps qs : List String} :
    TextSet.ofList ps = TextSet.ofList qs ↔ ∀ p, p ∈ ps ↔ p ∈ qs := by
  constructor
  · intro h p
    rw [← TextSet.mem_ofList, h, TextSet.mem_ofList]
  · intro h
    apply TextSet.ext
    intro p
    rw [TextSet.mem_ofList, TextSet.mem_ofList, h]

/-! ## Endings -/

/-- An outcome is a fault if `U` holds, and an answer or a refusal if not. -/
inductive Settled (U : Prop) : Outcome Error α → Prop
  | answer (a : α) (h : ¬ U) : Settled U (.ok a)
  | refusal (e : Error) (h : ¬ U) : Settled U (.error (.refused e))
  | unwritable (h : U) : Settled U (.error (.fault .digits))

namespace Settled

variable {P : Prop} {r : Outcome Error α}

theorem congr (h : Settled P r) (hiff : P ↔ U) : Settled U r := by
  obtain rfl : P = U := propext hiff
  exact h

/-- A refusal that quotes a piece of data is settled by whether this can be written. -/
theorem refuse {e : Error} (he : e.data? = some v) :
    Settled (v.hasText = false) (Descriptor.refuse e : Outcome Error α) := by
  unfold Descriptor.refuse
  rw [he, Option.all_some]
  cases htext : v.hasText with
  | true => exact .refusal e nofun
  | false => exact .unwritable rfl

theorem map {g : α → β} (h : Settled U r) : Settled U (r.map g) := by
  cases h with
  | answer a h => exact .answer (g a) h
  | refusal e h => exact .refusal e h
  | unwritable h => exact .unwritable h

/-- A second operation settles what the first gives an answer for. -/
theorem bind {f : α → Outcome Error β} (hr : Settled P r)
    (hf : ∀ a, r = .ok a → Settled U (f a)) :
    Settled (P ∨ (∃ a, r = .ok a) ∧ U) (r >>= f) := by
  cases hr with
  | answer a h =>
    apply (hf a rfl).congr
    constructor
    · intro hU
      exact .inr ⟨⟨a, rfl⟩, hU⟩
    · rintro (hP | ⟨-, hU⟩)
      · exact absurd hP h
      · exact hU
  | refusal e h =>
    apply Settled.refusal e
    rintro (hP | ⟨⟨_, ha⟩, -⟩)
    · exact h hP
    · cases ha
  | unwritable h => exact .unwritable (.inl h)

/-- A list is gone through up to the first member without an answer, which settles it. -/
theorem mapM {f : Value → Outcome Error β} {R : Value → Prop} (h : ∀ x, Settled (R x) (f x))
    (items : List Value) :
    Settled (∃ before x after, items = before ++ x :: after ∧
      (∀ y ∈ before, ∃ b, f y = .ok b) ∧ R x) (items.mapM f) := by
  induction items with
  | nil => exact .answer [] Outcome.not_exists_first_nil
  | cons v rest ih =>
    rw [List.mapM_cons]
    apply ((h v).bind fun b _ => ih.map).congr
    exact (Outcome.exists_first_cons_iff (P := fun y => ∃ b, f y = .ok b)).symm

/-- Without the fault there is an answer or a refusal. -/
theorem ok_or_refused (h : Settled U r) (hU : ¬ U) :
    (∃ a, r = .ok a) ∨ ∃ e, r = .error (.refused e) := by
  cases h with
  | answer a _ => exact .inl ⟨a, rfl⟩
  | refusal e _ => exact .inr ⟨e, rfl⟩
  | unwritable h => exact absurd h hU

theorem eq_fault (h : Settled U r) (hU : U) : r = .error (.fault .digits) := by
  cases h with
  | answer _ h | refusal _ h => exact absurd hU h
  | unwritable => rfl

end Settled

/-- A path is read exactly if it is one for a rule. -/
theorem exists_path?_iff : (∃ p, path? v = .ok p) ↔ IsRulePath v := by
  simp only [path?_eq_ok_iff, rulePathFault?_eq_none, IsRulePath]

/-- Reading a path faults exactly if the path cannot be written. -/
theorem settled_path? (v : Value) : Settled (v.hasText = false) (path? v) := by
  unfold path?
  split
  case h_1 p hp =>
    have hread : path? v = .ok p := by rw [path?, hp]
    obtain ⟨rfl, -⟩ := path?_eq_ok_iff.1 hread
    -- a text can always be written
    have htext : (Value.str p).hasText = true := rfl
    apply Settled.answer
    simp [htext]
  case h_2 => exact .refuse rfl

/-- Reading a set of paths faults exactly if its value cannot be quoted. -/
theorem settled_pathSet? (hkind : kind.isSet = true) :
    Settled (Unquotable kind v) (pathSet? key v) := by
  by_cases hv : ∃ items, IsCollectionOf items v
  case neg =>
    have hv : ∀ items, ¬ IsCollectionOf items v := not_exists.1 hv
    rw [pathSet?_of_not_isCollectionOf hv]
    apply (Settled.refuse rfl).congr
    constructor
    · exact .collection hkind hv
    · rintro (⟨hpath, -⟩ | ⟨-, -, h⟩ | ⟨-, hmembers, -, -⟩)
      · rw [hkind] at hpath
        contradiction
      · exact h
      · exact absurd hmembers (hv _)
  case pos =>
    obtain ⟨items, hitems⟩ := hv
    rw [pathSet?_of_isCollectionOf hitems]
    -- the first member that is no path decides how the traversal ends
    apply (Settled.mapM settled_path? items).map.congr
    simp only [exists_path?_iff]
    constructor
    · rintro ⟨before, x, after, rfl, hbefore, hx⟩
      exact .member hkind hitems hbefore hx
    · rintro (⟨hpath, -⟩ | ⟨-, hv, -⟩ | ⟨-, hmembers, hbefore, hx⟩)
      · rw [hkind] at hpath
        contradiction
      · exact absurd hitems (hv items)
      · exact ⟨_, _, _, hitems.unique hmembers, hbefore, hx⟩

/-! ## Reading in either form -/

/-- A dictionary with one key is read as the rule of this kind. -/
theorem rule?_eq_ruleOf? : rule? (.dict [(.str kind.text, v)]) = ruleOf? kind v := by
  have hkind : Rule.Kind.ofText? kind.text = some kind := ofText?_eq_some_iff.2 rfl
  simp only [rule?, hkind]

/-- In its short form a rule has its value at once. -/
theorem ruleArgument?_of_not_isDict {name : String} (hv : ¬ v.IsDict) :
    ruleArgument? kind name v = .ok v := by
  cases v with
  | dict entries => exact absurd ⟨entries, rfl⟩ hv
  | null | bool _ | int _ | real _ | str _ | list _ | tuple _ | set _ => rfl

/-- In its long form a rule has its value under a name. -/
theorem ruleArgument?_long {name : String} :
    ruleArgument? kind name (.dict [(.str name, v)]) = .ok v := by
  have hkeys : KeysAmong [name] [(.str name, v)] := by
    intro e he
    obtain rfl := List.mem_singleton.1 he
    exact ⟨name, List.mem_singleton_self name, rfl⟩
  rw [ruleArgument?, checkAttributes_of_keysAmong hkeys, Value.field?_cons_self]
  rfl

/-- The long form is read as its argument is. -/
theorem ruleOf?_long (hv : ¬ v.IsDict) :
    ruleOf? kind (.dict [(.str (argumentName kind), v)]) = ruleOf? kind v := by
  cases hkind : kind.isSet with
  | true | false =>
    simp only [ruleOf?, argumentName, hkind, if_true, if_false, Bool.false_eq_true,
      ruleArgument?_long, ruleArgument?_of_not_isDict hv]

/-- A rule for a set is made of the set that its value is read as. -/
theorem ruleOf?_of_isSet (hkind : kind.isSet = true) (hv : ¬ v.IsDict) :
    ruleOf? kind v = (pathSet? kind.text v).map fun paths => ⟨kind.included, .set paths⟩ := by
  simp only [ruleOf?, hkind, if_true, ruleArgument?_of_not_isDict hv]
  exact Outcome.bind_pure_eq_map (pathSet? kind.text v) _

theorem ruleOf?_of_ne_null (hkind : kind.isSet = false) (hv : ¬ v.IsDict) (hnull : v ≠ .null) :
    ruleOf? kind v = (path? v).map fun p => ⟨kind.included, .path p⟩ := by
  cases v with
  | null => exact absurd rfl hnull
  | dict entries => exact absurd ⟨entries, rfl⟩ hv
  | bool _ | int _ | real _ | str _ | list _ | tuple _ | set _ =>
    simp only [ruleOf?, hkind, if_false, Bool.false_eq_true, ruleArgument?_of_not_isDict hv,
      Outcome.ok_bind, Outcome.bind_pure_eq_map]

theorem ruleOf?_null (hkind : kind.isSet = false) :
    ruleOf? kind .null = .error (.refused (.missingPath kind)) := by
  simp only [ruleOf?, hkind, if_false, Bool.false_eq_true]
  rfl

theorem unquotable_iff_of_path (hkind : kind.isSet = false) :
    Unquotable kind v ↔ v.hasText = false := by
  constructor
  · rintro (⟨-, h⟩ | ⟨hset, -, -⟩ | ⟨hset, -, -, -⟩)
    · exact h
    · rw [hkind] at hset
      contradiction
    · rw [hkind] at hset
      contradiction
  · exact .path hkind

/-- Reading the value of a rule faults exactly if the value cannot be quoted. -/
theorem settled_ruleOf? (hv : ¬ v.IsDict) : Settled (Unquotable kind v) (ruleOf? kind v) := by
  cases hkind : kind.isSet with
  | true =>
    rw [ruleOf?_of_isSet hkind hv]
    exact (settled_pathSet? hkind).map
  | false =>
    apply Settled.congr _ (unquotable_iff_of_path hkind).symm
    by_cases hnull : v = .null
    · rw [hnull, ruleOf?_null hkind]
      have htext : Value.null.hasText = true := rfl
      apply Settled.refusal
      simp [htext]
    · rw [ruleOf?_of_ne_null hkind hv hnull]
      exact (settled_path? v).map

/-! ## What is read -/

/-- An argument makes a rule of a kind. -/
inductive Makes : Rule.Kind → Value → Rule → Prop
  | path {kind : Rule.Kind} {p : String} (hkind : kind.isSet = false)
    (hp : rulePathFault? p = none) : Makes kind (.str p) ⟨kind.included, .path p⟩
  | set {kind : Rule.Kind} {v : Value} {ps : List String} (hkind : kind.isSet = true)
    (hv : IsCollectionOf (ps.map .str) v) (hps : ∀ p ∈ ps, rulePathFault? p = none) :
    Makes kind v ⟨kind.included, .set (.ofList ps)⟩

/-- The rule that a value makes. -/
theorem ruleOf?_eq_ok_iff (hv : ¬ v.IsDict) {r : Rule} :
    ruleOf? kind v = .ok r ↔ Makes kind v r := by
  cases hkind : kind.isSet with
  | true =>
    rw [ruleOf?_of_isSet hkind hv, Outcome.map_eq_ok]
    simp only [pathSet?_eq_ok_iff]
    constructor
    · rintro ⟨_, ⟨ps, hps, hvalid, rfl⟩, rfl⟩
      exact .set hkind hps hvalid
    · rintro (⟨hpath, -⟩ | ⟨-, hps, hvalid⟩)
      · rw [hkind] at hpath
        contradiction
      · exact ⟨_, ⟨_, hps, hvalid, rfl⟩, rfl⟩
  | false =>
    -- null stands for a path that is missing
    by_cases hnull : v = .null
    · rw [hnull, ruleOf?_null hkind]
      refine ⟨nofun, ?_⟩
      rintro (- | ⟨hset, -, -⟩)
      rw [hkind] at hset
      contradiction
    · rw [ruleOf?_of_ne_null hkind hv hnull, Outcome.map_eq_ok]
      simp only [path?_eq_ok_iff]
      constructor
      · rintro ⟨p, ⟨rfl, hp⟩, rfl⟩
        exact .path hkind hp
      · rintro (⟨-, hp⟩ | ⟨hset, -, -⟩)
        · exact ⟨_, ⟨rfl, hp⟩, rfl⟩
        · rw [hkind] at hset
          contradiction

namespace Makes

variable {r : Rule}

theorem kind_eq (h : Makes kind v r) : r.kind = kind := by
  cases h with
  | path hkind _ =>
    cases kind with
    | includePath | excludePath => rfl
    | includeSet | excludeSet => cases hkind
  | set hkind _ _ =>
    cases kind with
    | includeSet | excludeSet => rfl
    | includePath | excludePath => cases hkind

theorem wellFormed (h : Makes kind v r) : r.WellFormed := by
  cases h with
  | path _ hp => exact hp
  | set _ _ hps =>
    intro p hp
    exact hps p (TextSet.mem_ofList.1 hp)

end Makes

/-! ## The two forms -/

/-- The two forms of a rule whose argument is no dictionary end alike: both give the rule that the
argument makes, or both are refused with the same error if it makes none, except that both end in a
fault exactly when what a refusal would quote cannot be written. The set of a rule is told by its
members, however they are collected. What is read is of the kind that was asked for, and is read
again from what writes it out. -/
theorem rule?_forms (kind : Rule.Kind) (v : Value) (hv : ¬ v.IsDict) :
    rule? (shortForm kind v) = rule? (longForm kind v) ∧
    (Unquotable kind v → rule? (shortForm kind v) = .error (.fault .digits)) ∧
    (¬ Unquotable kind v → (∃ r, Makes kind v r ∧ rule? (shortForm kind v) = .ok r) ∨
      (∀ r, ¬ Makes kind v r) ∧ ∃ e, rule? (shortForm kind v) = .error (.refused e)) ∧
    (∀ ps qs : List String, ∀ w w' : Value, kind.isSet = true →
      IsCollectionOf (ps.map .str) w → IsCollectionOf (qs.map .str) w' →
      (∀ p ∈ ps, rulePathFault? p = none) → (∀ p ∈ qs, rulePathFault? p = none) →
      ∃ r r', rule? (shortForm kind w) = .ok r ∧ rule? (shortForm kind w') = .ok r' ∧
        (r = r' ↔ ∀ p, p ∈ ps ↔ p ∈ qs)) ∧
    ∀ r, rule? (shortForm kind v) = .ok r →
      r.kind = kind ∧ ∀ w, WritesRule r w → rule? w = .ok r := by
  have hshort {w : Value} : rule? (shortForm kind w) = ruleOf? kind w := rule?_eq_ruleOf?
  -- both forms come down to reading the value of the rule
  simp only [hshort]
  refine ⟨?_, (settled_ruleOf? hv).eq_fault, ?_, ?_, ?_⟩
  · rw [longForm, rule?_eq_ruleOf?, ruleOf?_long hv]
  · intro hquotable
    rcases (settled_ruleOf? hv).ok_or_refused hquotable with ⟨r, hr⟩ | ⟨e, he⟩
    · exact .inl ⟨r, (ruleOf?_eq_ok_iff hv).1 hr, hr⟩
    · refine .inr ⟨?_, e, he⟩
      intro r hmakes
      rw [(ruleOf?_eq_ok_iff hv).2 hmakes] at he
      cases he
  · intro ps qs w w' hkind hw hw' hps hqs
    have hread := (ruleOf?_eq_ok_iff hw.not_isDict).2 (.set hkind hw hps)
    have hread' := (ruleOf?_eq_ok_iff hw'.not_isDict).2 (.set hkind hw' hqs)
    refine ⟨_, _, hread, hread', ?_⟩
    rw [← ofList_eq_ofList_iff, Rule.mk.injEq, Rule.Selector.set.injEq]
    exact and_iff_right rfl
  · intro r hr
    have hmakes : Makes kind v r := (ruleOf?_eq_ok_iff hv).1 hr
    exact ⟨hmakes.kind_eq, fun w hw => rule?_of_writes hmakes.wellFormed hw⟩

/-- A set in its long form and a tuple with the same members in its short form make one rule. -/
theorem rule?_forms_collected :
    ¬ (Value.set [.str "b", .str "a/"]).IsDict ∧
      ∃ r, rule? (longForm .excludeSet (.set [.str "b", .str "a/"])) = .ok r ∧
        rule? (shortForm .excludeSet (.tuple [.str "a/", .str "b", .str "a/"])) = .ok r := by
  have hv : ¬ (Value.set [.str "b", .str "a/"]).IsDict := by
    rintro ⟨_, h⟩
    cases h
  obtain ⟨hforms, -, -, hcollections, -⟩ := rule?_forms .excludeSet _ hv
  obtain ⟨r, r', hr, hr', hiff⟩ := hcollections ["b", "a/"] ["a/", "b", "a/"] _ _ rfl
    (.inr (.inr rfl)) (.inr (.inl rfl)) (by decide) (by decide)
  have hsame : r = r' := hiff.2 (by simp [or_comm])
  rw [hsame] at hr
  exact ⟨hv, r', hforms ▸ hr, hr'⟩

/-- The least number that is too long to be written is neither read nor refused as a path. -/
theorem rule?_forms_tooLong :
    ¬ (Value.int Value.unwritable).IsDict ∧
      rule? (shortForm .includePath (.int Value.unwritable)) = .error (.fault .digits) ∧
      rule? (longForm .includePath (.int Value.unwritable)) = .error (.fault .digits) := by
  have hv : ¬ (Value.int Value.unwritable).IsDict := by
    rintro ⟨_, h⟩
    cases h
  have hunquotable : Unquotable .includePath (.int Value.unwritable) :=
    .path rfl (Value.hasText_int_eq_false (Nat.le_refl _))
  have hshort : ruleOf? .includePath (.int Value.unwritable) = .error (.fault .digits) :=
    (settled_ruleOf? hv).eq_fault hunquotable
  refine ⟨hv, ?_, ?_⟩
  · rw [shortForm, rule?_eq_ruleOf?, hshort]
  · rw [longForm, rule?_eq_ruleOf?, ruleOf?_long hv, hshort]

end ModulePath.Descriptor
