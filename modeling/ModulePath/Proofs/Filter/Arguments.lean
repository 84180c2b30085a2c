import ModulePath.Filter.Expr
import ModulePath.Proofs.Outcome.Members
import ModulePath.Proofs.Value.Keys

/-!
# Arguments of filters

The arguments that a filter is made from, for each way to make one: which they are, and which filter
they make. `spread_eq_ok` says what the arguments of an aggregate stand for, one list or several
filters.
-/

set_option autoImplicit false

namespace ModulePath.Filter

variable {path : String}

/-! ## Texts -/

theorem requireText_eq_ok {what s : String} {v : Value} :
    requireText what v = .ok s ↔ v = .str s := by
  cases v with
  | str t => simp [requireText]
  | null => simp [requireText, Outcome.refuse]
  | bool _ | int _ | real _ | list _ | tuple _ | set _ | dict _ =>
    simp [requireText, Outcome.refuse]

theorem requireFilter_eq_ok {what : String} {o : Operand} {f : Filter} :
    requireFilter what o = .ok f ↔ o = .filter f := by
  cases o with
  | filter g => simp [requireFilter]
  | value v => cases v <;> simp [requireFilter, Outcome.refuse]

theorem equals?_eq_ok {v : Value} {f : Filter} :
    equals? v = .ok f ↔ ∃ p, v = .str p ∧ equals p = f := by
  simp only [equals?, Outcome.map_eq_ok, requireText_eq_ok]

/-- The filter for the children of a directory takes its name with the separator at the end. -/
theorem children?_eq_ok {v : Value} {f : Filter} :
    children? v = .ok f ↔
      ∃ parent, v = .str parent ∧ parent.toList.getLast? = some '/' ∧ children parent = f := by
  unfold children?
  simp only [Outcome.seq_eq_ok, requireText_eq_ok]
  refine exists_congr fun parent => and_congr_right fun _ => ?_
  by_cases h : parent.toList.getLast? = some '/'
  · simp [h]
  · simp [h, Outcome.refuse_ne_ok]

theorem childOf?_eq_ok {v : Value} {f : Filter} :
    childOf? v = .ok f ↔ ∃ dir, v = .str dir ∧ childOf dir = f := by
  simp only [childOf?, Outcome.map_eq_ok, requireText_eq_ok]

theorem selfOrChildOf?_eq_ok {v : Value} {f : Filter} :
    selfOrChildOf? v = .ok f ↔ ∃ dir, v = .str dir ∧ selfOrChildOf dir = f := by
  simp only [selfOrChildOf?, Outcome.map_eq_ok, requireText_eq_ok]

theorem glob?_eq_ok {v : Value} {f : Filter} :
    glob? v = .ok f ↔ ∃ pattern, v = .str pattern ∧ glob pattern = f := by
  simp only [glob?, Outcome.map_eq_ok, requireText_eq_ok]

/-- A filter for one of several paths takes a collection of texts. -/
theorem oneOf?_eq_ok {v : Value} {f : Filter} :
    oneOf? v = .ok f ↔
      ∃ items paths, v.items? = some items ∧ textSet? items = .ok paths ∧ oneOf paths = f := by
  unfold oneOf?
  cases v with
  | null => simp [Value.items?, Outcome.refuse_ne_ok]
  | bool _ | int _ | real _ => simp [Value.items?, Outcome.fault_ne_ok]
  | str _ | list _ | tuple _ | set _ | dict _ => simp [Value.items?, Outcome.map_eq_ok]

theorem eq_map_str {vs : List Value} {texts : List String}
    (h : List.Forall₂ (fun v s => v = Value.str s) vs texts) : vs = texts.map .str := by
  rwa [← List.forall₂_map_right_iff, List.forall₂_eq_eq_eq] at h

/-- A set is made of nothing but texts. -/
theorem exists_textSet?_iff {items : List Value} :
    (∃ paths, textSet? items = .ok paths) ↔ ∀ v ∈ items, v.IsText := by
  unfold textSet?
  constructor
  · rintro ⟨paths, h⟩
    cases hhash : Value.hashableAll items with
    | false => simp [hhash, Outcome.fault] at h
    | true =>
      simp only [hhash, Bool.not_true, Bool.false_eq_true, if_false, Outcome.seq_eq_ok,
        Outcome.mapM_eq_ok, requireText_eq_ok] at h
      obtain ⟨texts, htexts, -⟩ := h
      refine Value.forall_isText_members.1 fun v hv => ?_
      rw [eq_map_str htexts, List.mem_map] at hv
      obtain ⟨s, -, rfl⟩ := hv
      exact ⟨s, rfl⟩
  · intro h
    -- texts can stand in a set, and each of them is one that is asked for
    have hmembers : ∀ v ∈ Value.members items, ∃ s, requireText "path set member" v = .ok s := by
      intro v hv
      obtain ⟨s, rfl⟩ := Value.forall_isText_members.2 h v hv
      exact ⟨s, rfl⟩
    obtain ⟨texts, htexts⟩ := Outcome.exists_mapM_eq_ok.2 hmembers
    refine ⟨TextSet.ofList texts, ?_⟩
    simp [Value.hashableAll_of_isText h, htexts, Outcome.seq_eq_ok]

/-- The set that is made of data has the texts that are among them. -/
theorem mem_of_textSet?_eq_ok {items : List Value} {paths : TextSet}
    (h : textSet? items = .ok paths) : path ∈ paths ↔ .str path ∈ items := by
  unfold textSet? at h
  cases hhash : Value.hashableAll items with
  | false => simp [hhash, Outcome.fault] at h
  | true =>
    simp only [hhash, Bool.not_true, Bool.false_eq_true, if_false, Outcome.seq_eq_ok,
      Outcome.mapM_eq_ok, requireText_eq_ok] at h
    obtain ⟨texts, htexts, hpaths⟩ := h
    obtain rfl := Except.ok.inj hpaths
    rw [TextSet.mem_ofList, ← Value.str_mem_members, eq_map_str htexts]
    simp

/-! ## Delegates -/

/-- A filter that is made of one other filter. -/
theorem ofDelegate_eq_ok {what : String} {g : Filter → Filter} {r : Outcome Error Operand}
    {o : Operand} :
    (do return Operand.filter (← (requireFilter what (← r)).map g)) = .ok o ↔
      ∃ f, r = .ok (.filter f) ∧ .filter (g f) = o := by
  constructor
  · intro h
    obtain ⟨operand, hr, h⟩ := Outcome.seq_eq_ok.1 h
    obtain ⟨made, hmade, h⟩ := Outcome.seq_eq_ok.1 h
    obtain ⟨f, hf, rfl⟩ := Outcome.map_eq_ok.1 hmade
    obtain rfl := requireFilter_eq_ok.1 hf
    exact ⟨f, hr, Outcome.pure_eq_ok.1 h⟩
  · rintro ⟨f, rfl, rfl⟩
    rfl

/-- Operands are taken if all of them are filters. -/
theorem mapM_requireFilter_eq_ok {what : String} {os : List Operand} {fs : List Filter} :
    os.mapM (requireFilter what) = .ok fs ↔ os = fs.map .filter := by
  rw [Outcome.mapM_eq_ok]
  simp only [requireFilter_eq_ok]
  rw [← List.forall₂_map_right_iff, List.forall₂_eq_eq_eq]

/-- The aggregate of filters. -/
def Combine.of : Combine → List Filter → Filter
  | .any => anyOf
  | .all => allOf
  | .none => noneOf

/-- A combination is built of filters only. -/
theorem Combine.build?_eq_ok {c : Combine} {os : List Operand} {f : Filter} :
    c.build? os = .ok f ↔ ∃ fs, os = fs.map .filter ∧ c.of fs = f := by
  cases c with
  | any | all | none =>
    simp [Combine.build?, aggregate?, Outcome.map_eq_ok, mapM_requireFilter_eq_ok, Combine.of,
      anyOf, allOf, noneOf]

theorem Combine.build?_map {c : Combine} {fs : List Filter} :
    c.build? (fs.map .filter) = .ok (c.of fs) :=
  Combine.build?_eq_ok.2 ⟨fs, rfl, rfl⟩

/-- Arguments stand for filters when they are the filters, or when the only one is an empty
collection and there are none. -/
theorem spread_eq_ok {os : List Operand} {fs : List Filter} :
    spread os = .ok (fs.map .filter) ↔
      os = fs.map .filter ∨ (fs = [] ∧ ∃ v, os = [.value v] ∧ v.items? = some []) := by
  unfold spread
  split
  case h_1 =>
    cases fs with
    | nil => simp [Value.items?]
    | cons f fs => simp
  case h_2 v hnull =>
    -- data are taken for a list of filters, which holds none
    cases hitems : v.items? with
    | none =>
      cases fs with
      | nil => simp [hitems, Outcome.fault_ne_ok]
      | cons f fs => simp [Outcome.fault_ne_ok]
    | some items =>
      cases fs with
      | nil => simp [hitems]
      | cons f fs => cases items <;> simp
  case h_3 hnull hvalue =>
    constructor
    · intro h
      exact .inl (Except.ok.inj h)
    · rintro (rfl | ⟨-, v, rfl, -⟩)
      · rfl
      · exact absurd rfl (hvalue v)

end ModulePath.Filter
