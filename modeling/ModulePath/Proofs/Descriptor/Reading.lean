import Mathlib.Data.List.Basic
import ModulePath.Proofs.Descriptor.Grammar
import ModulePath.Proofs.Value.Parts

/-!
# Reading accepts the grammar

Each reader of a descriptor judges its data: it gives an answer when the data are in its part of the
grammar, and refuses them when they are not (`Judges`). The one way to end otherwise is a number
that is too long to be written where the refusal has to quote it. Put together, a descriptor is read
from the data in the grammar and from no others (`ofValue?_iff_inGrammar`).
-/

set_option autoImplicit false

namespace ModulePath.Descriptor

variable {α β : Type} {P Q U : Prop} {v : Value} {entries : Entries} {name place key : String}

/-! ## Judgement -/

/-- An outcome is an answer if `P` holds, and a refusal if not. Instead of a refusal there may be a
fault if `U` holds. -/
inductive Judges (P U : Prop) : Outcome Error α → Prop
  | accepts (a : α) (h : P) : Judges P U (.ok a)
  | refuses (e : Error) (h : ¬ P) : Judges P U (.error (.refused e))
  | unwritable (h : ¬ P) (hu : U) : Judges P U (.error (.fault .digits))

namespace Judges

theorem congr {r : Outcome Error α} (h : Judges P U r) (hiff : P ↔ Q) : Judges Q U r := by
  obtain rfl : P = Q := propext hiff
  exact h

/-- What is refused is quoted, unless it cannot be written. -/
theorem refuse {e : Error} (h : ¬ P) (hu : ∀ v, e.data? = some v → v.hasText = false → U) :
    Judges P U (Descriptor.refuse e : Outcome Error α) := by
  unfold Descriptor.refuse
  by_cases hwritable : e.data?.all Value.hasText = true
  · rw [if_pos hwritable]
    exact .refuses e h
  · rw [if_neg hwritable]
    cases hdata : e.data? with
    | none => simp [hdata] at hwritable
    | some v => exact .unwritable h (hu v hdata (by simpa [hdata] using hwritable))

/-- A reader goes on only with data that are right so far. -/
theorem bind {r : Outcome Error α} {f : α → Outcome Error β} (hr : Judges P U r) (hPQ : Q → P)
    (hf : ∀ a, r = .ok a → P → Judges Q U (f a)) : Judges Q U (r >>= f) := by
  cases hr with
  | accepts a h => exact hf a rfl h
  | refuses e h => exact .refuses e (mt hPQ h)
  | unwritable h hu => exact .unwritable (mt hPQ h) hu

theorem map {r : Outcome Error α} {g : α → β} (hr : Judges P U r) : Judges P U (r.map g) := by
  cases hr with
  | accepts a h => exact .accepts (g a) h
  | refuses e h => exact .refuses e h
  | unwritable h hu => exact .unwritable h hu

/-- A list is gone through up to the first member that is not right. -/
theorem mapM {f : Value → Outcome Error β} {R : Value → Prop} {items : List Value}
    (h : ∀ v ∈ items, Judges (R v) U (f v)) : Judges (∀ v ∈ items, R v) U (items.mapM f) := by
  induction items with
  | nil => exact .accepts [] (List.forall_mem_nil R)
  | cons v vs ih =>
    obtain ⟨hv, hvs⟩ := List.forall_mem_cons.1 h
    rw [List.mapM_cons]
    refine hv.bind (fun hall => (List.forall_mem_cons.1 hall).1) fun b _ hfirst => ?_
    refine (ih hvs).bind (fun hall => (List.forall_mem_cons.1 hall).2) fun bs _ hrest => ?_
    exact .accepts _ (List.forall_mem_cons.2 ⟨hfirst, hrest⟩)

/-- There is an answer exactly if the data are right. -/
theorem exists_eq_ok_iff {r : Outcome Error α} (h : Judges P U r) : (∃ a, r = .ok a) ↔ P := by
  cases h with
  | accepts a h => exact ⟨fun _ => h, fun _ => ⟨a, rfl⟩⟩
  | refuses e h => exact ⟨nofun, fun hp => absurd hp h⟩
  | unwritable h hu => exact ⟨nofun, fun hp => absurd hp h⟩

/-- Data that are not right are refused, or their refusal is a fault. -/
theorem eq_error {r : Outcome Error α} (h : Judges P U r) (hP : ¬ P) :
    (∃ e, r = .error (.refused e)) ∨ (U ∧ r = .error (.fault .digits)) := by
  cases h with
  | accepts a h => exact absurd h hP
  | refuses e h => exact .inl ⟨e, rfl⟩
  | unwritable h hu => exact .inr ⟨hu, rfl⟩

end Judges

/-! ## Data and their parts -/

/-- Data as the readers need them: with texts as keys, and with `U` if they cannot be written. -/
structure Readable (U : Prop) (v : Value) : Prop where
  keys : v.StringKeys
  text : v.hasText = false → U

namespace Readable

/-- A member is readable where the whole is. -/
theorem of_allHaveText {items : List Value} {w : Value} (hw : w ∈ items) (hkeys : w.StringKeys)
    (htext : Value.allHaveText items = false → U) : Readable U w := by
  refine ⟨hkeys, fun hunwritable => htext ?_⟩
  refine Bool.eq_false_iff.2 fun hall => ?_
  simp [Value.allHaveText_iff.1 hall w hw] at hunwritable

theorem of_list {items : List Value} {w : Value} (h : Readable U (.list items)) (hw : w ∈ items) :
    Readable U w := by
  obtain ⟨hkeys, htext⟩ := h
  cases hkeys with
  | list _ hitems => exact of_allHaveText hw (hitems w hw) htext

theorem of_tuple {items : List Value} {w : Value} (h : Readable U (.tuple items))
    (hw : w ∈ items) : Readable U w := by
  obtain ⟨hkeys, htext⟩ := h
  cases hkeys with
  | tuple _ hitems => exact of_allHaveText hw (hitems w hw) htext

theorem of_set {items : List Value} {w : Value} (h : Readable U (.set items)) (hw : w ∈ items) :
    Readable U w := by
  obtain ⟨hkeys, htext⟩ := h
  cases hkeys with
  | set _ hitems => exact of_allHaveText hw (hitems w hw) htext

theorem of_entry {e : Value × Value} (h : Readable U (.dict entries)) (he : e ∈ entries) :
    Readable U e.2 := by
  obtain ⟨hkeys, htext⟩ := h
  cases hkeys with
  | dict _ _ hvalues =>
    refine ⟨hvalues e he, fun hunwritable => htext (Bool.eq_false_iff.2 fun hall => ?_)⟩
    obtain ⟨-, hvalue⟩ := Value.entriesHaveText_iff.1 hall e he
    simp [hvalue] at hunwritable

theorem isText_of_entry {e : Value × Value} (h : Readable U (.dict entries)) (he : e ∈ entries) :
    e.1.IsText := by
  cases h.keys with
  | dict _ hkeys _ => exact hkeys e he

/-- The value of a field is readable where the dictionary is. -/
theorem of_field? (h : Readable U (.dict entries)) (hv : Value.field? name entries = some v) :
    Readable U v :=
  h.of_entry (Value.mem_of_field?_eq_some hv)

/-- An attribute with a default that is a scalar. -/
theorem getD_field? {default : Value} (h : Readable U (.dict entries))
    (hdefault : Readable U default) : Readable U ((Value.field? name entries).getD default) := by
  cases hfield : Value.field? name entries with
  | none => exact hdefault
  | some w => exact h.of_field? hfield

end Readable

/-- What is refused is quoted, or cannot be written. -/
theorem Readable.refuse {e : Error} (h : Readable U v) (hP : ¬ P) (he : e.data? = some v) :
    Judges P U (refuse e : Outcome Error α) := by
  refine .refuse hP fun w hw => ?_
  obtain rfl : v = w := Option.some.inj (he.symm.trans hw)
  exact h.text

/-- A field with a right default is right if it is absent or its value is. -/
theorem optionally_iff {R : Value → Prop} {default : Value} (hdefault : R default) :
    R ((Value.field? name entries).getD default) ↔ Optionally R name entries := by
  unfold Optionally
  cases Value.field? name entries with
  | none => simpa using hdefault
  | some w => simp

/-! ## Scalars -/

/-- All keys are among the allowed ones if none is left when those are taken out. -/
theorem keysAmong_iff {allowed : List String} : KeysAmong allowed entries ↔
    ((entries.map (·.1)).filter fun k => !allowed.any fun a => Value.keyEq k (.str a)) = [] := by
  simp [KeysAmong, List.filter_eq_nil_iff, Value.keyEq_str_iff]

/-- Attributes pass if they are among the allowed ones. -/
theorem judges_checkAttributes {allowed : List String} (h : Readable U (.dict entries)) :
    Judges (KeysAmong allowed entries) U (checkAttributes entries allowed place) := by
  unfold checkAttributes
  generalize hunknown : ((entries.map (·.1)).filter fun k =>
    !allowed.any fun a => Value.keyEq k (.str a)) = unknown
  have htexts : ∀ k ∈ unknown, k.IsText := by
    intro k hk
    rw [← hunknown] at hk
    obtain ⟨e, he, rfl⟩ := List.mem_map.1 (List.mem_filter.1 hk).1
    exact h.isText_of_entry he
  have hnone : KeysAmong allowed entries ↔ unknown = [] := by
    rw [← hunknown, keysAmong_iff]
  -- texts can be sorted, so the unknown keys are listed and not a fault
  obtain ⟨sorted, hsorted⟩ := Value.exists_sort?_of_isText htexts
  have hmem : ∀ k, k ∈ sorted ↔ k ∈ unknown := Value.mem_of_sort?_eq_some hsorted
  simp only [hsorted]
  cases sorted with
  | nil =>
    refine .accepts () (hnone.2 (List.eq_nil_iff_forall_not_mem.2 fun k hk => ?_))
    simpa using (hmem k).2 hk
  | cons k ks =>
    have hsome : ¬ KeysAmong allowed entries := by
      intro hkeys
      have hk : k ∈ unknown := (hmem k).1 List.mem_cons_self
      simp [hnone.1 hkeys] at hk
    have hwritable : (k :: ks).all Value.hasText = true :=
      List.all_eq_true.2 fun w hw => Value.hasText_of_isText (htexts w ((hmem w).1 hw))
    simp only [hwritable, if_true]
    exact .refuse hsome nofun

theorem judges_flag? (h : Readable U v) : Judges (IsFlag v) U (flag? key v) := by
  cases v with
  | bool b => exact .accepts b (.inl ⟨b, rfl⟩)
  | str s =>
    unfold flag?
    by_cases htrue : Text.lowerString s = "true"
    · simp only [htrue, beq_self_eq_true, if_true]
      exact .accepts true (.inr ⟨s, rfl, .inl htrue⟩)
    by_cases hfalse : Text.lowerString s = "false"
    · simp only [hfalse, beq_self_eq_true, if_true]
      exact .accepts false (.inr ⟨s, rfl, .inr hfalse⟩)
    · simp only [beq_eq_false_iff_ne.2 htrue, beq_eq_false_iff_ne.2 hfalse, Bool.false_eq_true,
        if_false]
      exact h.refuse (by simp [IsFlag, htrue, hfalse]) rfl
  | null | int _ | real _ | list _ | tuple _ | set _ | dict _ =>
    exact h.refuse (by simp [IsFlag]) rfl

theorem judges_flagField? (h : Readable U (.dict entries)) :
    Judges (Optionally IsFlag key entries) U (flagField? entries key) := by
  have hdefault : Readable U (.bool false) := ⟨.bool false, nofun⟩
  exact (judges_flag? (h.getD_field? hdefault)).congr (optionally_iff (.inl ⟨false, rfl⟩))

/-! ## Rule paths -/

/-- A path without a fault is not empty and not too long, and holds no control character. -/
theorem rulePathFault?_eq_none {s : String} :
    rulePathFault? s = none ↔
      s ≠ "" ∧ s.length ≤ maxPathLength ∧ ∀ c ∈ s.toList, 32 ≤ c.toNat := by
  unfold rulePathFault?
  by_cases hempty : s = ""
  · simp [hempty]
  by_cases hlong : maxPathLength < s.length
  · simp [hempty, hlong, Nat.not_le.2 hlong]
  by_cases hnull : '\x00' ∈ s.toList
  · have hbelow : ¬ ∀ c ∈ s.toList, 32 ≤ c.toNat := fun h => absurd (h _ hnull) (by decide)
    simpa [hempty, hlong, hnull] using fun _ => hbelow
  · simp [hempty, hlong, hnull, Nat.not_lt.1 hlong]

theorem judges_path? (h : Readable U v) : Judges (IsRulePath v) U (path? v) := by
  cases v with
  | str s =>
    have hiff : IsRulePath (.str s) ↔ rulePathFault? s = none := by
      simp [IsRulePath, rulePathFault?_eq_none]
    cases hfault : rulePathFault? s with
    | none =>
      have hread : rulePath? (.str s) = .ok s := by simp [rulePath?, hfault]
      rw [path?, hread]
      exact .accepts s (hiff.2 hfault)
    | some f =>
      have hread : rulePath? (.str s) = .error f := by simp [rulePath?, hfault]
      rw [path?, hread]
      exact h.refuse (by simp [hiff, hfault]) rfl
  | null | bool _ | int _ | real _ | list _ | tuple _ | set _ | dict _ =>
    exact h.refuse (by simp [IsRulePath]) rfl

theorem judges_pathSet? (h : Readable U v) : Judges (IsPathSet v) U (pathSet? key v) := by
  have hitems {items : List Value} (hv : v = .list items ∨ v = .tuple items ∨ v = .set items)
      (hreadable : ∀ w ∈ items, Readable U w) :
      Judges (IsPathSet v) U ((items.mapM path?).map TextSet.ofList) := by
    refine Judges.congr (.map (.mapM fun w hw => judges_path? (hreadable w hw))) ?_
    refine ⟨fun hall => ⟨items, hv, hall⟩, ?_⟩
    rintro ⟨others, hothers, hall⟩
    have hsame : others = items := by
      rcases hv with rfl | rfl | rfl <;> simpa [eq_comm] using hothers
    rwa [← hsame]
  cases v with
  | list items => exact hitems (.inl rfl) fun w hw => h.of_list hw
  | tuple items => exact hitems (.inr (.inl rfl)) fun w hw => h.of_tuple hw
  | set items => exact hitems (.inr (.inr rfl)) fun w hw => h.of_set hw
  | null | bool _ | int _ | real _ | str _ | dict _ =>
    exact h.refuse (by simp [IsPathSet]) rfl

/-! ## Rules -/

/-- The short form of a rule and its long form are read alike. -/
theorem judges_ruleArgument? {R : Value → Prop} {parse : Value → Outcome Error β} {kind : Rule.Kind}
    (h : Readable U v) (hshort : ∀ entries, ¬ R (.dict entries))
    (hparse : ∀ w, Readable U w → Judges (R w) U (parse w)) :
    Judges (IsArgument R name v) U (ruleArgument? kind name v >>= parse) := by
  have hscalar (hv : ∀ entries, v ≠ .dict entries) : R v ↔ IsArgument R name v := by
    refine ⟨.inl, ?_⟩
    rintro (hR | ⟨entries, rfl, -⟩)
    · exact hR
    · exact absurd rfl (hv entries)
  cases v with
  | dict entries =>
    rw [ruleArgument?, bind_assoc]
    -- a dictionary is never the argument itself, so it is the long form
    have hlong : IsArgument R name (.dict entries) →
        KeysAmong [name] entries ∧ ∃ w, Value.field? name entries = some w ∧ R w := by
      rintro (hR | ⟨_, hentries, hkeys, hfield⟩)
      · exact absurd hR (hshort entries)
      · obtain rfl := Value.dict.inj hentries
        exact ⟨hkeys, hfield⟩
    refine (judges_checkAttributes h).bind (fun hQ => (hlong hQ).1) fun _ _ hkeys => ?_
    cases hfield : Value.field? name entries with
    | none =>
      refine Judges.bind (P := False) (.refuse not_false nofun) (fun hQ => ?_) fun _ _ => nofun
      obtain ⟨-, w, hw, -⟩ := hlong hQ
      simp [hfield] at hw
    | some w =>
      refine (hparse w (h.of_field? hfield)).congr ⟨fun hR => ?_, fun hQ => ?_⟩
      · exact .inr ⟨entries, rfl, hkeys, w, hfield, hR⟩
      · obtain ⟨-, _, hw, hR⟩ := hlong hQ
        rwa [Option.some.inj (hfield.symm.trans hw)]
  | null | bool _ | int _ | real _ | str _ | list _ | tuple _ | set _ =>
    exact (hparse _ h).congr (hscalar nofun)

theorem judges_ruleOf? {kind : Rule.Kind} (h : Readable U v) :
    Judges (IsRuleValue kind v) U (ruleOf? kind v) := by
  unfold IsRuleValue ruleOf?
  cases hset : kind.isSet with
  | true =>
    simp only [if_true]
    refine judges_ruleArgument? h (by simp [IsPathSet]) fun w hw => ?_
    exact (judges_pathSet? hw).bind id fun paths _ hpaths => .accepts _ hpaths
  | false =>
    simp only [Bool.false_eq_true, if_false]
    refine judges_ruleArgument? h (by simp [IsRulePath]) fun w hw => ?_
    have hpath : Judges (IsRulePath w) U
        (path? w >>= fun p => pure (⟨kind.included, .path p⟩ : Rule)) :=
      (judges_path? hw).bind id fun p _ hp => .accepts _ hp
    cases w with
    | null => exact .refuse (by simp [IsRulePath]) nofun
    | bool _ | int _ | real _ | str _ | list _ | tuple _ | set _ | dict _ => exact hpath

theorem ofText?_eq_some_iff {s : String} {kind : Rule.Kind} :
    Rule.Kind.ofText? s = some kind ↔ s = kind.text := by
  constructor
  · intro h
    have hfound := List.find?_some h
    exact (beq_iff_eq.1 hfound).symm
  · rintro rfl
    cases kind with
    | includePath | excludePath | includeSet | excludeSet => rfl

theorem judges_rule? (h : Readable U v) : Judges (IsRule v) U (rule? v) := by
  have hshape (hv : ∀ k w, v ≠ .dict [(k, w)]) :
      Judges (IsRule v) U (refuse (.ruleShape v) : Outcome Error Rule) := by
    refine h.refuse ?_ rfl
    rintro ⟨kind, w, rfl, -⟩
    exact hv _ w rfl
  unfold rule?
  split
  case h_2 hv => exact hshape fun k w => hv k w
  case h_1 k w =>
    have hentry : (k, w) ∈ [(k, w)] := List.mem_singleton_self _
    obtain ⟨s, rfl⟩ := h.isText_of_entry hentry
    have hargument : Readable U w := h.of_entry hentry
    cases hkind : Rule.Kind.ofText? s with
    | none =>
      simp only [hkind]
      refine .refuse ?_ ?_
      · rintro ⟨kind, w', hrule, -⟩
        simp only [Value.dict.injEq, List.cons.injEq, Prod.mk.injEq, Value.str.injEq] at hrule
        simp [ofText?_eq_some_iff.2 hrule.1.1] at hkind
      · intro key hkey
        obtain rfl := Option.some.inj hkey
        simp [Value.hasText]
    | some kind =>
      simp only [hkind]
      obtain rfl := ofText?_eq_some_iff.1 hkind
      refine (judges_ruleOf? hargument).congr ⟨fun hvalue => ⟨kind, w, rfl, hvalue⟩, ?_⟩
      rintro ⟨other, w', hrule, hvalue⟩
      simp only [Value.dict.injEq, List.cons.injEq, Prod.mk.injEq, Value.str.injEq] at hrule
      -- a text is the word for one kind only
      obtain ⟨⟨htext, rfl⟩, -⟩ := hrule
      have hsame : some kind = some other := hkind.symm.trans (ofText?_eq_some_iff.2 htext)
      rwa [Option.some.inj hsame]

theorem judges_rules? (h : Readable U v) : Judges (IsRules v) U (rules? v) := by
  have hitems {items : List Value} (hv : v = .list items ∨ v = .tuple items)
      (hreadable : ∀ w ∈ items, Readable U w) : Judges (IsRules v) U (items.mapM rule?) := by
    refine Judges.congr (.mapM fun w hw => judges_rule? (hreadable w hw)) ?_
    refine ⟨fun hall => .inr ⟨items, hv, hall⟩, ?_⟩
    rintro (rfl | ⟨others, hothers, hall⟩)
    · simp at hv
    · have hsame : others = items := by
        rcases hv with rfl | rfl <;> simpa [eq_comm] using hothers
      rwa [← hsame]
  cases v with
  | null => exact .accepts [] (.inl rfl)
  | list items => exact hitems (.inl rfl) fun w hw => h.of_list hw
  | tuple items => exact hitems (.inr rfl) fun w hw => h.of_tuple hw
  | bool _ | int _ | real _ | str _ | set _ | dict _ =>
    exact h.refuse (by simp [IsRules]) rfl

theorem judges_rulesField? (h : Readable U (.dict entries)) :
    Judges (Optionally IsRules key entries) U (rulesField? entries key) := by
  have hdefault : Readable U .null := ⟨.null, nofun⟩
  exact (judges_rules? (h.getD_field? hdefault)).congr (optionally_iff (.inl rfl))

/-! ## Dependencies -/

theorem nonEmptyText?_eq_none_iff :
    nonEmptyText? (Value.field? name entries) = none ↔ ¬ HasName name entries := by
  unfold HasName nonEmptyText?
  cases Value.field? name entries with
  | none => simp
  | some w =>
    cases w with
    | str s => simp
    | null | bool _ | int _ | real _ | list _ | tuple _ | set _ | dict _ => simp

theorem hasName_of_nonEmptyText? {s : String}
    (h : nonEmptyText? (Value.field? name entries) = some s) : HasName name entries := by
  by_contra hno
  simp [nonEmptyText?_eq_none_iff.2 hno] at h

theorem isServices_iff : IsServices v ↔ ∃ mode, Services.ofValue? v = some mode := by
  constructor
  · rintro ⟨mode, rfl⟩
    cases mode with
    | hidden | visible | reexported => exact ⟨_, rfl⟩
  · rintro ⟨mode, h⟩
    cases v with
    | str s =>
      have hfound := List.find?_some h
      exact ⟨mode, congrArg Value.str (beq_iff_eq.1 hfound).symm⟩
    | null | bool _ | int _ | real _ | list _ | tuple _ | set _ | dict _ => cases h

theorem judges_moduleDependency? (h : Readable U (.dict entries)) :
    Judges (IsModule entries) U (moduleDependency? (.dict entries)) := by
  have hservices : IsServices ((Value.field? "services" entries).getD (.str Services.hidden.text)) ↔
      Optionally IsServices "services" entries := optionally_iff ⟨.hidden, rfl⟩
  refine (judges_checkAttributes h).bind IsModule.keys fun _ _ hkeys => ?_
  cases htarget : nonEmptyText? (Value.field? "module" entries) with
  | none => exact .refuse (fun hQ => nonEmptyText?_eq_none_iff.1 htarget hQ.target) nofun
  | some target =>
    have hname := hasName_of_nonEmptyText? htarget
    cases hmode : Services.ofValue?
        ((Value.field? "services" entries).getD (.str Services.hidden.text)) with
    | none =>
      simp only [hmode]
      refine .refuse (fun hQ => ?_) nofun
      obtain ⟨mode, hread⟩ := isServices_iff.1 (hservices.2 hQ.services)
      simp [hread] at hmode
    | some mode =>
      simp only [hmode]
      have hright := hservices.1 (isServices_iff.2 ⟨mode, hmode⟩)
      -- the fields are read one after the other, and each is right where the whole is
      refine (judges_flagField? h).bind IsModule.reexport fun _ _ hreexport => ?_
      refine (judges_flagField? h).bind IsModule.optional fun _ _ hoptional => ?_
      refine (judges_rulesField? h).bind IsModule.importRules fun _ _ himport => ?_
      refine (judges_rulesField? h).bind IsModule.exportRules fun _ _ hexport => ?_
      exact .accepts _ ⟨hkeys, hname, hright, hreexport, hoptional, himport, hexport⟩

/-- What stands under the mark of a dependency on the platform. -/
theorem judges_platformDependency? (h : Readable U v) :
    Judges (v = .null ∨ ∃ attributes, v = .dict attributes ∧ IsPlatform attributes) U
      (platformDependency? v) := by
  cases v with
  | null => exact .accepts _ (.inl rfl)
  | dict entries =>
    have hdefault : Readable U .null := ⟨.null, nofun⟩
    have hplatform : Judges (IsPlatform entries) U (platformDependency? (.dict entries)) := by
      refine (judges_checkAttributes h).bind IsPlatform.keys fun _ _ hkeys => ?_
      have hpaths : _ ↔ Optionally (fun w => w = .null ∨ IsPathSet w) "paths" entries :=
        optionally_iff (.inl rfl)
      have hreadable : Readable U ((Value.field? "paths" entries).getD .null) :=
        h.getD_field? hdefault
      have hrest (paths : TextSet)
          (hright : Optionally (fun w => w = .null ∨ IsPathSet w) "paths" entries) :
          Judges (IsPlatform entries) U (do
            let reexport ← flagField? entries "export"
            let exportRules ← rulesField? entries "exports"
            return ({ paths, reexport, exportRules } : PlatformDependency)) := by
        refine (judges_flagField? h).bind IsPlatform.reexport fun _ _ hreexport => ?_
        refine (judges_rulesField? h).bind IsPlatform.exportRules fun _ _ hexport => ?_
        exact .accepts _ ⟨hkeys, hright, hreexport, hexport⟩
      -- null names no paths, and anything else is read as a set of them
      generalize (Value.field? "paths" entries).getD .null = w at hpaths hreadable
      cases w with
      | null => exact hrest .empty (hpaths.1 (.inl rfl))
      | bool _ | int _ | real _ | str _ | list _ | tuple _ | set _ | dict _ =>
        refine (judges_pathSet? hreadable).bind (fun hQ => ?_) fun paths _ hset => ?_
        · simpa using hpaths.2 hQ.paths
        · exact hrest paths (hpaths.1 (.inr hset))
    exact hplatform.congr (by simp)
  | bool _ | int _ | real _ | str _ | list _ | tuple _ | set _ =>
    exact h.refuse (by simp) rfl

/-- A module dependency has no place for the mark of one on the platform. -/
theorem not_isModule_of_system (h : Value.field? "system" entries = some v) :
    ¬ IsModule entries := by
  intro hmodule
  obtain ⟨name, hname, hkey⟩ := hmodule.keys _ (Value.mem_of_field?_eq_some h)
  obtain rfl := Value.str.inj hkey
  exact absurd hname (by decide)

theorem judges_dependency? (h : Readable U v) : Judges (IsDependency v) U (dependency? v) := by
  have hshape (hv : ∀ entries, v ≠ .dict entries) :
      Judges (IsDependency v) U (refuse (.dependencyShape v) : Outcome Error ModuleDependency) := by
    refine h.refuse ?_ rfl
    rintro ⟨entries, rfl, -⟩
    exact hv entries rfl
  cases v with
  | dict entries =>
    unfold dependency?
    cases hsystem : Value.field? "system" entries with
    | none =>
      simp only [hsystem]
      have hmodule := (judges_moduleDependency? h).map (g := Dependency.onModule)
      refine hmodule.congr ⟨fun hmodule => ⟨entries, rfl, .inr hmodule⟩, ?_⟩
      rintro ⟨_, hentries, hform⟩
      obtain rfl := Value.dict.inj hentries
      rcases hform with ⟨w, rfl, -⟩ | hmodule
      · simp [Value.field?_cons_self] at hsystem
      · exact hmodule
    | some platform =>
      simp only [hsystem]
      -- with the mark, only the first of the two forms is left
      have hnot := not_isModule_of_system hsystem
      by_cases hlength : entries.length = 1
      · rw [if_pos hlength]
        obtain ⟨e, rfl⟩ := List.length_eq_one_iff.1 hlength
        have he := Value.mem_of_field?_eq_some hsystem
        obtain rfl : (.str "system", platform) = e := List.mem_singleton.1 he
        refine (judges_platformDependency? (h.of_field? hsystem)).map.congr ⟨fun hform => ?_, ?_⟩
        · exact ⟨_, rfl, .inl ⟨platform, rfl, hform⟩⟩
        · rintro ⟨_, hentries, hform⟩
          obtain rfl := Value.dict.inj hentries
          rcases hform with ⟨w, hw, hform⟩ | hmodule
          · simp only [List.cons.injEq, Prod.mk.injEq, true_and, and_true] at hw
            rwa [hw]
          · exact absurd hmodule hnot
      · rw [if_neg hlength]
        refine .refuse ?_ nofun
        rintro ⟨_, hentries, hform⟩
        obtain rfl := Value.dict.inj hentries
        rcases hform with ⟨w, rfl, -⟩ | hmodule
        · exact hlength rfl
        · exact hnot hmodule
  | null | bool _ | int _ | real _ | str _ | list _ | tuple _ | set _ =>
    simp only [dependency?, moduleDependency?]
    exact (hshape nofun).map

theorem judges_dependencies? (h : Readable U v) :
    Judges (IsDependencies v) U (dependencies? v) := by
  unfold dependencies? IsDependencies
  cases htruthy : v.truthy with
  | false => exact .accepts [] (.inl rfl)
  | true =>
    simp only [if_true]
    cases v with
    | list items =>
      refine Judges.congr (.mapM fun w hw => judges_dependency? (h.of_list hw)) (by simp)
    | null | bool _ | int _ | real _ | str _ | tuple _ | set _ | dict _ =>
      exact .refuse (by simp) nofun

/-! ## Descriptors -/

/-- A descriptor is read from what the grammar calls one. -/
theorem judges_ofValue? (h : Readable U v) : Judges (InGrammar v) U (ofValue? v) := by
  cases v with
  | dict entries =>
    have hdefault : Readable U .null := ⟨.null, nofun⟩
    have hdependencies : Judges (Optionally IsDependencies "dependencies" entries) U
        (dependencies? ((Value.field? "dependencies" entries).getD .null)) :=
      (judges_dependencies? (h.getD_field? hdefault)).congr (optionally_iff (.inl rfl))
    have hdescriptor : Judges (IsDescriptor entries) U (ofValue? (.dict entries)) := by
      refine (judges_checkAttributes h).bind IsDescriptor.keys fun _ _ hkeys => ?_
      cases hname : nonEmptyText? (Value.field? "name" entries) with
      | none => exact .refuse (fun hQ => nonEmptyText?_eq_none_iff.1 hname hQ.name) nofun
      | some name =>
        have hright := hasName_of_nonEmptyText? hname
        refine hdependencies.bind IsDescriptor.dependencies fun _ _ hdependencies => ?_
        refine (judges_rulesField? h).bind IsDescriptor.exportRules fun _ _ hexport => ?_
        exact .accepts _ ⟨hkeys, hright, hdependencies, hexport⟩
    exact hdescriptor.congr (by simp [InGrammar])
  | null | bool _ | int _ | real _ | str _ | list _ | tuple _ | set _ =>
    exact .refuse (by simp [InGrammar]) nofun

/-- A descriptor is read from the data in the grammar. Other data are refused, unless they hold a
number that is too long to be written. -/
theorem ofValue?_iff_inGrammar (h : v.StringKeys) :
    ((∃ d, ofValue? v = .ok d) ↔ InGrammar v) ∧
      (¬ InGrammar v → (∃ e, ofValue? v = .error (.refused e)) ∨
        (v.hasText = false ∧ ofValue? v = .error (.fault .digits))) := by
  have hjudges : Judges (InGrammar v) (v.hasText = false) (ofValue? v) := judges_ofValue? ⟨h, id⟩
  exact ⟨hjudges.exists_eq_ok_iff, hjudges.eq_error⟩

/-- Data with a name and something in the place of rules. -/
def named (exportRules : Value) : Value :=
  .dict [(.str "name", .str "m"), (.str "exports", exportRules)]

theorem stringKeys_named (h : v.StringKeys) : (named v).StringKeys := by
  refine .dict _ (fun e he => ?_) fun e he => ?_
  · rcases List.mem_cons.1 he with rfl | he
    · exact ⟨_, rfl⟩
    · obtain rfl := List.mem_singleton.1 he
      exact ⟨_, rfl⟩
  · rcases List.mem_cons.1 he with rfl | he
    · exact .str _
    · obtain rfl := List.mem_singleton.1 he
      exact h

/-- A rule in its long form. -/
def longRule : Value := .dict [(.str "exclude", .dict [(.str "path", .str "impl/*")])]

theorem stringKeys_longRule : longRule.StringKeys := by
  refine .dict _ (by simp [Value.IsText]) fun e he => ?_
  obtain rfl := List.mem_singleton.1 he
  refine .dict _ (by simp [Value.IsText]) fun e he => ?_
  obtain rfl := List.mem_singleton.1 he
  exact .str _

theorem inGrammar_longRule :
    (named (.list [longRule])).StringKeys ∧ InGrammar (named (.list [longRule])) := by
  have hkeys : (named (.list [longRule])).StringKeys := by
    refine stringKeys_named (.list _ fun w hw => ?_)
    obtain rfl := List.mem_singleton.1 hw
    exact stringKeys_longRule
  obtain ⟨hread, -⟩ := ofValue?_iff_inGrammar hkeys
  exact ⟨hkeys, hread.1 ⟨_, rfl⟩⟩

/-- Rules that are a number have to be quoted when they are refused. -/
theorem rules?_unwritable {n : Int} (h : (Value.int n).hasText = false) :
    rules? (.int n) = .error (.fault .digits) := by
  simp only [rules?]
  unfold refuse
  rw [if_neg (by simp [Error.data?, h])]
  rfl

/-- Rules are read after everything else that is there. -/
theorem ofValue?_named : ofValue? (named v) =
    (rules? v >>= fun exportRules => pure { name := "m", exportRules, dependencies := [] }) := rfl

/-- The least number that is too long to be written is no list of rules, but is not refused. -/
theorem ofValue?_tooLong :
    (named (.int Value.unwritable)).StringKeys ∧ ¬ InGrammar (named (.int Value.unwritable)) ∧
      ofValue? (named (.int Value.unwritable)) = .error (.fault .digits) := by
  have hkeys : (named (.int Value.unwritable)).StringKeys := stringKeys_named (.int _)
  have hfault : ofValue? (named (.int Value.unwritable)) = .error (.fault .digits) := by
    rw [ofValue?_named, rules?_unwritable (Value.hasText_int_eq_false (Nat.le_refl _))]
    rfl
  refine ⟨hkeys, fun hgrammar => ?_, hfault⟩
  have hjudges : Judges (InGrammar (named (.int Value.unwritable))) True _ :=
    judges_ofValue? ⟨hkeys, fun _ => trivial⟩
  obtain ⟨d, hd⟩ := hjudges.exists_eq_ok_iff.2 hgrammar
  rw [hfault] at hd
  cases hd

end ModulePath.Descriptor
