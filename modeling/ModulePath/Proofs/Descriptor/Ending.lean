import Mathlib.Data.List.Basic
import ModulePath.Descriptor.Read
import ModulePath.Proofs.Value.Parts

/-!
# How reading a descriptor ends

Each reader of a descriptor, given any data at all, ends in an answer, in a refusal, or in one of
two faults (`Ends`): the unknown attributes of a dictionary are sorted before they are refused,
which keys without an order may not allow, and a refusal that quotes data cannot quote a number that
is too long to be written. Either fault says something about the data. The first is met for certain
where the unknown attributes fall into two parts without an order between them
(`checkAttributes_of_divided`).
-/

set_option autoImplicit false

namespace ModulePath.Descriptor

variable {α β : Type} {v w : Value} {entries : Entries} {allowed : List String}
  {name place key : String}

/-! ## Endings -/

/-- How reading a piece of data can end. -/
inductive Ends (v : Value) : Outcome Error α → Prop
  | answer (a : α) : Ends v (.ok a)
  | refusal (e : Error) : Ends v (.error (.refused e))
  /-- The keys of a dictionary have no order. -/
  | unordered (h : v.Disordered) : Ends v (.error (.fault .kind))
  /-- The data cannot be written. -/
  | unwritable (h : v.hasText = false) : Ends v (.error (.fault .digits))

namespace Ends

/-- Reading a part ends in one of the ways in which reading the whole may. -/
theorem of_taints {r : Outcome Error α} (h : Ends w r) (hw : w.Taints v) : Ends v r := by
  cases h with
  | answer a => exact .answer a
  | refusal e => exact .refusal e
  | unordered h => exact .unordered (hw.disordered h)
  | unwritable h => exact .unwritable (hw.unwritable h)

/-- A refusal ends in a fault if it quotes data that cannot be written. -/
theorem refuse {e : Error} (h : ∀ w, e.data? = some w → w.hasText = false → v.hasText = false) :
    Ends v (Descriptor.refuse e : Outcome Error α) := by
  unfold Descriptor.refuse
  split
  case isTrue => exact .refusal e
  case isFalse hunwritable =>
    cases hdata : e.data? with
    | none => simp [hdata] at hunwritable
    | some w =>
      have hw : w.hasText = false := by simpa [hdata] using hunwritable
      exact .unwritable (h w hdata hw)

/-- A refusal that quotes the data that are read. -/
theorem refuse_self {e : Error} (he : e.data? = some v) :
    Ends v (Descriptor.refuse e : Outcome Error α) := by
  refine .refuse fun w hw => ?_
  obtain rfl : v = w := Option.some.inj (he.symm.trans hw)
  exact id

/-- A refusal that quotes no data. -/
theorem refuse_plain {e : Error} (he : e.data? = none) :
    Ends v (Descriptor.refuse e : Outcome Error α) := by
  refine .refuse fun w hw => ?_
  rw [he] at hw
  contradiction

/-- A reader goes on where the one before it gave an answer. -/
theorem bind {r : Outcome Error α} {f : α → Outcome Error β} (hr : Ends v r)
    (hf : ∀ a, r = .ok a → Ends v (f a)) : Ends v (r >>= f) := by
  cases hr with
  | answer a => exact hf a rfl
  | refusal e => exact .refusal e
  | unordered h => exact .unordered h
  | unwritable h => exact .unwritable h

theorem map {r : Outcome Error α} {g : α → β} (hr : Ends v r) : Ends v (r.map g) := by
  cases hr with
  | answer a => exact .answer (g a)
  | refusal e => exact .refusal e
  | unordered h => exact .unordered h
  | unwritable h => exact .unwritable h

/-- A list is gone through until a member ends it, by induction on the members. -/
theorem mapM {f : α → Outcome Error β} {items : List α} (h : ∀ a ∈ items, Ends v (f a)) :
    Ends v (items.mapM f) := by
  induction items with
  | nil => exact .answer []
  | cons a rest ih =>
    obtain ⟨ha, hrest⟩ := List.forall_mem_cons.1 h
    rw [List.mapM_cons]
    refine ha.bind fun b _ => ?_
    refine (ih hrest).bind fun bs _ => ?_
    exact .answer (b :: bs)

end Ends

/-! ## Attributes -/

/-- Whether a key is none of the allowed attributes. -/
def isUnknown (allowed : List String) (k : Value) : Bool :=
  !allowed.any fun a => Value.keyEq k (.str a)

/-- The attributes of a dictionary that are not allowed. -/
def unknown (allowed : List String) (entries : Entries) : List Value :=
  (entries.map (·.1)).filter (isUnknown allowed)

/-- A key is unknown if it is none of the allowed names. -/
theorem isUnknown_iff {k : Value} : isUnknown allowed k = true ↔ ∀ a ∈ allowed, k ≠ .str a := by
  simp [isUnknown, Value.keyEq_str_iff]

/-- The unknown keys of a dictionary are its keys that are no allowed names. -/
theorem mem_unknown {k : Value} :
    k ∈ unknown allowed entries ↔ k ∈ entries.map (·.1) ∧ ∀ a ∈ allowed, k ≠ .str a := by
  rw [unknown, List.mem_filter, isUnknown_iff]

/-- The unknown attributes are sorted first, then written, and only then refused. -/
theorem checkAttributes_eq :
    checkAttributes entries allowed place =
      match Value.sort? (unknown allowed entries) with
      | none => Outcome.fault .kind
      | some [] => .ok ()
      | some names =>
        if names.all Value.hasText then
          refuse (.unknownAttributes place (names.map Value.display))
        else Outcome.fault .digits := rfl

/-- The unknown attributes can only fail to be sorted if two keys have no order. -/
theorem disordered_of_sort?_unknown (h : Value.sort? (unknown allowed entries) = none) :
    (Value.dict entries).Disordered := by
  obtain ⟨k, k', hsub, hlt⟩ := Value.exists_unordered_of_sort?_eq_none h
  exact .keys (hsub.trans List.filter_sublist) hlt

/-- Attributes that are not allowed are refused, unless they cannot be sorted or not be written. -/
theorem ends_checkAttributes : Ends (.dict entries) (checkAttributes entries allowed place) := by
  rw [checkAttributes_eq]
  cases hsort : Value.sort? (unknown allowed entries) with
  | none => exact .unordered (disordered_of_sort?_unknown hsort)
  | some sorted =>
    cases sorted with
    | nil => exact .answer ()
    | cons k ks =>
      dsimp only
      by_cases hwritable : (k :: ks).all Value.hasText = true
      · rw [if_pos hwritable]
        exact .refuse_plain rfl
      · rw [if_neg hwritable]
        -- what cannot be written is a key of the dictionary
        obtain ⟨u, hu, hunwritable⟩ := List.all_eq_false.1 (Bool.eq_false_iff.2 hwritable)
        have hkey : u ∈ unknown allowed entries := (Value.mem_of_sort?_eq_some hsort u).1 hu
        obtain ⟨e, he, rfl⟩ := List.mem_map.1 (mem_unknown.1 hkey).1
        exact .unwritable (Value.hasText_eq_false_of_key he (Bool.eq_false_iff.2 hunwritable))

/-- Unknown attributes in two parts without an order between them are never refused. -/
theorem checkAttributes_of_divided (h : Value.Divided (unknown allowed entries)) :
    checkAttributes entries allowed place = Outcome.fault .kind := by
  rw [checkAttributes_eq, Value.sort?_eq_none_of_divided h]

/-! ## Scalars and paths -/

theorem ends_flag? : Ends v (flag? key v) := by
  unfold flag?
  split
  case h_1 b => exact .answer b
  case h_2 s =>
    split
    · exact .answer true
    · split
      · exact .answer false
      · exact .refuse_self rfl
  case h_3 => exact .refuse_self rfl

theorem ends_flagField? : Ends (.dict entries) (flagField? entries key) :=
  ends_flag?.of_taints (Value.taints_getD_field? (Value.taints_bool false _))

theorem ends_path? : Ends v (path? v) := by
  unfold path?
  split
  case h_1 p _ => exact .answer p
  case h_2 => exact .refuse_self rfl

theorem ends_pathSet? : Ends v (pathSet? key v) := by
  have hitems {items : List Value} (htaints : ∀ w ∈ items, w.Taints v) :
      Ends v ((items.mapM path?).map TextSet.ofList) :=
    .map (.mapM fun w hw => ends_path?.of_taints (htaints w hw))
  cases v with
  | list items => exact hitems fun w hw => Value.taints_list hw
  | tuple items => exact hitems fun w hw => Value.taints_tuple hw
  | set items => exact hitems fun w hw => Value.taints_set hw
  | null | bool _ | int _ | real _ | str _ | dict _ => exact .refuse_self rfl

/-! ## Rules -/

/-- What a rule is made from is the argument itself or an attribute of it. -/
theorem ends_ruleArgument? {parse : Value → Outcome Error β} {kind : Rule.Kind}
    (hparse : ∀ w, Ends w (parse w)) : Ends v (ruleArgument? kind name v >>= parse) := by
  cases v with
  | dict entries =>
    rw [ruleArgument?, bind_assoc]
    refine ends_checkAttributes.bind fun _ _ => ?_
    cases hfield : Value.field? name entries with
    | none => exact .refusal (.missingAttribute kind name)
    | some w => exact (hparse w).of_taints (Value.taints_field? hfield)
  | null | bool _ | int _ | real _ | str _ | list _ | tuple _ | set _ => exact hparse _

theorem ends_ruleOf? {kind : Rule.Kind} : Ends v (ruleOf? kind v) := by
  unfold ruleOf?
  split
  case isTrue =>
    exact ends_ruleArgument? fun w => ends_pathSet?.bind fun paths _ => .answer _
  case isFalse =>
    refine ends_ruleArgument? fun w => ?_
    split
    case h_1 => exact .refuse_plain rfl
    case h_2 => exact ends_path?.bind fun p _ => .answer _

theorem ends_rule? : Ends v (rule? v) := by
  unfold rule?
  split
  case h_2 => exact .refuse_self rfl
  case h_1 k w =>
    have hentry : (k, w) ∈ [(k, w)] := List.mem_singleton_self _
    -- a key that names no kind is quoted, and it is one of the keys of the data
    have hkind : Ends (.dict [(k, w)]) (refuse (.ruleKind k) : Outcome Error Rule) := by
      refine .refuse fun u hu hunwritable => ?_
      obtain rfl : k = u := Option.some.inj hu
      exact Value.hasText_eq_false_of_key hentry hunwritable
    split
    case h_1 s =>
      split
      case h_1 kind _ => exact ends_ruleOf?.of_taints (Value.taints_entry hentry)
      case h_2 => exact hkind
    case h_2 => exact hkind

theorem ends_rules? : Ends v (rules? v) := by
  unfold rules?
  split
  case h_1 => exact .answer []
  case h_2 items => exact .mapM fun w hw => ends_rule?.of_taints (Value.taints_list hw)
  case h_3 items => exact .mapM fun w hw => ends_rule?.of_taints (Value.taints_tuple hw)
  case h_4 => exact .refuse_self rfl

theorem ends_rulesField? : Ends (.dict entries) (rulesField? entries key) :=
  ends_rules?.of_taints (Value.taints_getD_field? (Value.taints_null _))

/-! ## Dependencies -/

theorem ends_moduleDependency? : Ends v (moduleDependency? v) := by
  unfold moduleDependency?
  split
  case h_2 => exact .refuse_self rfl
  case h_1 entries =>
    refine ends_checkAttributes.bind fun _ _ => ?_
    split
    case h_1 => exact .refuse_plain rfl
    case h_2 target _ =>
      dsimp only
      split
      -- the mode is quoted with a text in its place when it cannot be written
      case h_1 => exact .refuse_plain rfl
      case h_2 services _ =>
        refine ends_flagField?.bind fun reexport _ => ?_
        refine ends_flagField?.bind fun optional _ => ?_
        refine ends_rulesField?.bind fun importRules _ => ?_
        refine ends_rulesField?.bind fun exportRules _ => ?_
        exact .answer _

theorem ends_platformDependency? : Ends v (platformDependency? v) := by
  unfold platformDependency?
  split
  case h_1 => exact .answer _
  case h_3 => exact .refuse_self rfl
  case h_2 entries =>
    refine ends_checkAttributes.bind fun _ _ => ?_
    -- how the rest ends does not depend on the paths
    have hrest (paths : TextSet) : Ends (.dict entries) (do
        let reexport ← flagField? entries "export"
        let exportRules ← rulesField? entries "exports"
        return ({ paths, reexport, exportRules } : PlatformDependency)) := by
      refine ends_flagField?.bind fun reexport _ => ?_
      refine ends_rulesField?.bind fun exportRules _ => ?_
      exact .answer _
    have htaints : ((Value.field? "paths" entries).getD .null).Taints (.dict entries) :=
      Value.taints_getD_field? (Value.taints_null _)
    cases hpaths : (Value.field? "paths" entries).getD .null with
    | null => exact hrest .empty
    | bool _ | int _ | real _ | str _ | list _ | tuple _ | set _ | dict _ =>
      rw [hpaths] at htaints
      exact (ends_pathSet?.of_taints htaints).bind fun paths _ => hrest paths

theorem ends_dependency? : Ends v (dependency? v) := by
  unfold dependency?
  split
  case h_2 => exact ends_moduleDependency?.map
  case h_1 entries =>
    split
    case h_2 => exact ends_moduleDependency?.map
    case h_1 platform hplatform =>
      split
      case isTrue =>
        exact (ends_platformDependency?.of_taints (Value.taints_field? hplatform)).map
      case isFalse => exact .refuse_plain rfl

theorem ends_dependencies? : Ends v (dependencies? v) := by
  unfold dependencies?
  split
  case isFalse => exact .answer []
  case isTrue =>
    split
    case h_1 items => exact .mapM fun w hw => ends_dependency?.of_taints (Value.taints_list hw)
    case h_2 => exact .refuse_plain rfl

/-! ## Descriptors -/

/-- How reading a descriptor ends. -/
theorem ends_ofValue? : Ends v (ofValue? v) := by
  unfold ofValue?
  split
  case h_2 => exact .refuse_plain rfl
  case h_1 entries =>
    refine ends_checkAttributes.bind fun _ _ => ?_
    split
    case h_1 => exact .refuse_plain rfl
    case h_2 name _ =>
      have htaints : ((Value.field? "dependencies" entries).getD .null).Taints (.dict entries) :=
        Value.taints_getD_field? (Value.taints_null _)
      refine (ends_dependencies?.of_taints htaints).bind fun dependencies _ => ?_
      refine ends_rulesField?.bind fun exportRules _ => ?_
      exact .answer _

end ModulePath.Descriptor
