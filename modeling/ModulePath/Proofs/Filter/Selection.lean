import Mathlib.Data.List.Basic
import ModulePath.Filter.Loose
import ModulePath.Proofs.Filter.Delegates

/-!
# Selecting resources on demand

A selection draws resources from a list until it has as many as are asked for. Taking it up again
where it stopped is the same as asking for all at once (`select_add`), and resources that come after
the last one that is asked for are not drawn (`select_append_of_le`). As long as every resource has
an answer, the resources selected are the first that are accepted, and those drawn end in the last
of them (`select_eq`). A filter has an answer for every resource with a path, so this holds of the
resources that a filter selects (`selects_first_accepted`).
-/

set_option autoImplicit false

namespace ModulePath

/-- The path of a resource: the resource itself, or the text in its attribute `name`. -/
def Resource.named? : Resource → Option String
  | .path p => some p
  | .record attributes =>
    match attributes.lookup "name" with
    | some (.str p) => some p
    | _ => none

namespace Filter

/-! ## Drawing resources -/

section Drawing

variable {α ε : Type} {accept : α → Except ε Bool} {p : α → Bool} {rs : List α} {n : Nat}

/-- How many members of a list are drawn to get some that are accepted: none if none are asked for,
up to the last one asked for if there are so many, and otherwise all. -/
def drawnFor (p : α → Bool) (rs : List α) : Nat → Nat
  | 0 => 0
  | n + 1 => if n + 1 ≤ rs.countP p then rs.findIdxNth p n + 1 else rs.length

/-- An accepted resource is drawn, and one less is wanted. -/
theorem drawnFor_cons_of_accepted {r : α} (h : p r = true) :
    drawnFor p (r :: rs) (n + 1) = drawnFor p rs n + 1 := by
  rw [drawnFor, List.countP_cons_of_pos h, List.length_cons]
  cases n with
  | zero => simp [drawnFor, h]
  | succ n =>
    rw [drawnFor, List.findIdxNth_cons_succ_of_pos h]
    by_cases hn : n + 1 ≤ rs.countP p
    · rw [if_pos hn, if_pos (Nat.succ_le_succ hn)]
    · rw [if_neg hn, if_neg (mt Nat.le_of_succ_le_succ hn)]

/-- A rejected resource is drawn in vain. -/
theorem drawnFor_cons_of_rejected {r : α} (h : p r = false) :
    drawnFor p (r :: rs) (n + 1) = drawnFor p rs (n + 1) + 1 := by
  rw [drawnFor, drawnFor, List.countP_cons_of_neg (by simp [h]), List.length_cons,
    List.findIdxNth_cons_of_neg h]
  by_cases hn : n + 1 ≤ rs.countP p
  · rw [if_pos hn, if_pos hn]
  · rw [if_neg hn, if_neg hn]

/-- Nothing is drawn when nothing is asked for. -/
theorem select_zero (rs : List α) : select accept (some 0) rs = .ok ⟨[], 0⟩ := by
  cases rs with
  | nil => rfl
  | cons r rs => rw [select, if_pos rfl]

/-- A resource that is accepted is selected, and one less is to be found among the others. -/
theorem select_cons_of_accepts {r : α} (h : accept r = .ok true) :
    select accept (some (n + 1)) (r :: rs) = do
      let s ← select accept (some n) rs
      return ⟨r :: s.items, s.consumed + 1⟩ := by
  rw [select, if_neg (by simp), h]
  rfl

/-- A resource that is rejected is drawn and no more. -/
theorem select_cons_of_rejects {r : α} (h : accept r = .ok false) :
    select accept (some (n + 1)) (r :: rs) = do
      let s ← select accept (some (n + 1)) rs
      return ⟨s.items, s.consumed + 1⟩ := by
  rw [select, if_neg (by simp), h]
  rfl

/-- A resource without an answer ends the selection. -/
theorem select_cons_of_error {r : α} {e : ε} (h : accept r = .error e) :
    select accept (some (n + 1)) (r :: rs) = .error e := by
  rw [select, if_neg (by simp), h]
  rfl

/-- The first `n` resources, and then `m` more of what was not drawn for them. -/
theorem select_add (n m : Nat) (rs : List α) :
    select accept (some (n + m)) rs = do
      let first ← select accept (some n) rs
      let next ← select accept (some m) (rs.drop first.consumed)
      return ⟨first.items ++ next.items, first.consumed + next.consumed⟩ := by
  induction rs generalizing n with
  | nil => rfl
  | cons r rs ih =>
    cases n with
    | zero =>
      rw [select_zero, Nat.zero_add]
      cases hm : select accept (some m) (r :: rs) with
      | ok next => simp [bind, Except.bind, pure, Except.pure, hm]
      | error e => simp [bind, Except.bind, hm]
    | succ n =>
      rw [Nat.add_right_comm]
      cases hr : accept r with
      | error e => rw [select_cons_of_error hr, select_cons_of_error hr]; rfl
      | ok answer =>
        cases answer with
        | true =>
          simp only [select_cons_of_accepts hr, ih, bind_assoc, pure_bind, List.drop_succ_cons,
            List.cons_append, Nat.add_right_comm]
        | false =>
          rw [select_cons_of_rejects hr, select_cons_of_rejects hr, Nat.add_right_comm, ih]
          simp only [bind_assoc, pure_bind, List.drop_succ_cons, Nat.add_right_comm]

/-- The resources selected are the first that are accepted. The induction is along the resources:
each of them is drawn, and leaves as many to be found as before or one less. -/
theorem select_eq (h : ∀ r ∈ rs, accept r = .ok (p r)) :
    select accept (some n) rs = .ok ⟨(rs.filter p).take n, drawnFor p rs n⟩ := by
  induction rs generalizing n with
  | nil => cases n <;> simp [select, drawnFor]
  | cons r rs ih =>
    obtain ⟨hr, hrs⟩ := List.forall_mem_cons.1 h
    cases n with
    | zero => simp [select_zero, drawnFor]
    | succ n =>
      cases hp : p r with
      | true =>
        rw [hp] at hr
        rw [select_cons_of_accepts hr, ih hrs, List.filter_cons_of_pos hp, List.take_succ_cons,
          drawnFor_cons_of_accepted hp]
        rfl
      | false =>
        rw [hp] at hr
        rw [select_cons_of_rejects hr, ih hrs, List.filter_cons_of_neg (by simp [hp]),
          drawnFor_cons_of_rejected hp]
        rfl

/-- Resources that come after the last one that is asked for are not drawn, so they need no
answer. -/
theorem select_append_of_le (h : ∀ r ∈ rs, accept r = .ok (p r)) (hn : n ≤ rs.countP p)
    (more : List α) : select accept (some n) (rs ++ more) = select accept (some n) rs := by
  induction rs generalizing n with
  | nil =>
    obtain rfl : n = 0 := Nat.le_zero.1 hn
    rw [select_zero, select_zero]
  | cons r rs ih =>
    obtain ⟨hr, hrs⟩ := List.forall_mem_cons.1 h
    cases n with
    | zero => rw [select_zero, select_zero]
    | succ n =>
      rw [List.cons_append]
      -- an accepted resource is one of those that are wanted, a rejected one is drawn in vain
      cases hp : p r with
      | true =>
        rw [hp] at hr
        rw [List.countP_cons_of_pos hp] at hn
        rw [select_cons_of_accepts hr, select_cons_of_accepts hr,
          ih hrs (Nat.le_of_succ_le_succ hn)]
      | false =>
        rw [hp] at hr
        rw [List.countP_cons_of_neg (by simp [hp])] at hn
        rw [select_cons_of_rejects hr, select_cons_of_rejects hr, ih hrs hn]

end Drawing

/-! ## What a filter selects -/

variable {f : Filter} {r : Resource} {path : String}

/-- Filters have an answer for every text, and it is their answer for the path. The induction is
along the filter; where it asks its delegates, those asked are the same. -/
theorem acceptsValue?_str (path : String) (f : Filter) :
    f.acceptsValue? (.str path) = .ok (f.accepts path) := by
  induction f using induct with
  | hconst answer => rfl
  | hequals p =>
    have hkey : Value.keyEq (.str path) (.str p) = (path == p) := by simp [Value.keyEq]
    rw [acceptsValue?, hkey, accepts]
  | hchildren parent => rfl
  | hmembers paths => rfl
  | hglob pattern => rfl
  | hinverse f ih => rw [acceptsValue?, ih, accepts, Except.map]
  | haggregate mode fs ih =>
    rw [acceptsValue?, accepts]
    -- the delegates are asked one after the other, each of them about the text
    induction fs with
    | nil => rfl
    | cons f fs ihs =>
      obtain ⟨hf, hfs⟩ := List.forall_mem_cons.1 ih
      rw [decideFirst?, hf, decideFirst, apply_ite Except.ok, ← ihs hfs]
      rfl
  | hrules rs default ih =>
    rw [acceptsValue?, accepts]
    induction rs with
    | nil => rfl
    | cons rule rs ihs =>
      obtain ⟨hf, hfs⟩ := List.forall_mem_cons.1 ih
      obtain ⟨f, answer⟩ := rule
      rw [firstRule?, hf, firstRule, apply_ite Except.ok, ← ihs hfs]
      rfl
  | hprobe name answer => rfl

theorem path?_of_named? (h : r.named? = some path) : r.path? none = .ok (.str path) := by
  cases r with
  | path p =>
    obtain rfl := Option.some.inj h
    rfl
  | record attributes =>
    rw [Resource.named?] at h
    split at h
    case h_1 p hp =>
      obtain rfl := Option.some.inj h
      rw [Resource.path?, Option.getD_none, hp]
    case h_2 => cases h

/-- A filter accepts the path of a resource. -/
def keeps (f : Filter) (r : Resource) : Bool := r.named?.any f.accepts

/-- A resource with a name is accepted exactly if the filter accepts its name. -/
theorem acceptsResource_of_named (h : r.named?.isSome = true) :
    acceptsResource none (.filter f) r = .ok (f.keeps r) := by
  obtain ⟨path, hpath⟩ := Option.isSome_iff_exists.1 h
  rw [acceptsResource, path?_of_named? hpath, keeps, hpath]
  change (f.acceptsValue? (.str path)).mapError Failure.fault = _
  rw [acceptsValue?_str]
  rfl

theorem selectResources_eq (n : Nat) (resources : List Resource) :
    selectResources (.filter f) none (some n) resources =
      select (acceptsResource none (.filter f)) (some n) resources := by
  cases n with
  | zero => rw [select_zero]; rfl
  | succ n => rfl

/-- From resources that all have a path, a filter selects the first `n` whose path it accepts, or
all of them if there are fewer, in order and with repetitions. No more resources are drawn than that
takes: what comes after the last one selected plays no part, even if it has no path. Whoever asks
for `m` more gets what he would have got by asking for all of them at once. -/
theorem selects_first_accepted (f : Filter) {resources : List Resource}
    (h : ∀ r ∈ resources, r.named?.isSome = true) (n : Nat) :
    selectResources (.filter f) none (some n) resources =
        .ok ⟨(resources.filter f.keeps).take n, drawnFor f.keeps resources n⟩ ∧
      (n ≤ resources.countP f.keeps → ∀ more,
        selectResources (.filter f) none (some n) (resources ++ more) =
          selectResources (.filter f) none (some n) resources) ∧
      ∀ m, selectResources (.filter f) none (some (n + m)) resources = do
        let first ← selectResources (.filter f) none (some n) resources
        let next ← selectResources (.filter f) none (some m) (resources.drop first.consumed)
        return ⟨first.items ++ next.items, first.consumed + next.consumed⟩ := by
  have haccept : ∀ r ∈ resources, acceptsResource none (.filter f) r = .ok (f.keeps r) :=
    fun r hr => acceptsResource_of_named (h r hr)
  simp only [selectResources_eq]
  exact ⟨select_eq haccept, select_append_of_le haccept, fun m => select_add n m resources⟩

/-- Paths and a record, one of them twice. -/
def sampleResources : List Resource :=
  [.path "b/y", .path "a/x", .record [("size", .int 1), ("name", .str "a/z")], .path "a/x",
    .path "a"]

/-- Two resources below `a` are found after three were drawn. -/
theorem selects_sampleResources :
    (∀ r ∈ sampleResources, r.named?.isSome = true) ∧
      selectResources (.filter (childOf "a")) none (some 2) sampleResources =
        .ok ⟨[.path "a/x", .record [("size", .int 1), ("name", .str "a/z")]], 3⟩ := by
  have h : ∀ r ∈ sampleResources, r.named?.isSome = true := by decide
  obtain ⟨heq, -, -⟩ := selects_first_accepted (childOf "a") h 2
  exact ⟨h, heq.trans rfl⟩

end Filter

end ModulePath
