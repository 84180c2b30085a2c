import ModulePath.Proofs.Config.Validity

/-!
# How checking a configuration ends

The check of any data ends in success, in a refusal, or in one of two faults (`check_eq_fault_iff`).
Fields that are not allowed are named in the text of the refusal, which fails if one of them is no
text. And a refusal that quotes a setting fails if the setting is a number that is too long to be
written. Either comes up exactly if nothing before it, in the order of the check, is refused.
Loading data into a source ends in the same ways (`loads_load`).
-/

set_option autoImplicit false

namespace ModulePath.Config

open Value (field?)

variable {s : Section} {entries sections : Entries} {v : Value} {allowed : List String}
  {fault : Invalid} {e : Failure Invalid} {f : Fault}

/-! ## Refusals -/

/-- A refusal has a text: what it quotes can be written. -/
def Invalid.Writable (fault : Invalid) : Prop := fault.data?.all Value.hasText = true

instance : DecidablePred Invalid.Writable := fun fault =>
  inferInstanceAs (Decidable (fault.data?.all Value.hasText = true))

theorem refuse_of_writable {α : Type} (h : fault.Writable) :
    (refuse fault : Outcome Invalid α) = .error (.refused fault) := if_pos h

/-- A message about a number with too many digits cannot be written. -/
theorem refuse_of_not_writable {α : Type} (h : ¬ fault.Writable) :
    (refuse fault : Outcome Invalid α) = .error (.fault .digits) := if_neg h

/-- A refusal is a fault only where its message cannot be written. -/
theorem refuse_eq_fault_iff {α : Type} :
    (refuse fault : Outcome Invalid α) = .error (.fault f) ↔ f = .digits ∧ ¬ fault.Writable := by
  by_cases h : fault.Writable
  · rw [refuse_of_writable h]
    exact ⟨nofun, fun hf => absurd h hf.2⟩
  · rw [refuse_of_not_writable h, Except.error.injEq, Failure.fault.injEq]
    exact ⟨fun hf => ⟨hf.symm, h⟩, fun hf => hf.1.symm⟩

/-! ## Fields -/

theorem text?_eq_none_iff : text? v = none ↔ ¬ v.IsText := by
  cases v with
  | str name => exact ⟨nofun, fun h => absurd ⟨name, rfl⟩ h⟩
  | null | bool _ | int _ | real _ | list _ | tuple _ | set _ | dict _ =>
    exact ⟨fun _ => nofun, fun _ => rfl⟩

/-- Texts can all be named. -/
theorem exists_mapM_text? {keys : List Value} (h : ∀ key ∈ keys, key.IsText) :
    ∃ names, keys.mapM text? = some names := by
  induction keys with
  | nil => exact ⟨[], rfl⟩
  | cons key rest ih =>
    obtain ⟨⟨name, rfl⟩, hrest⟩ := List.forall_mem_cons.1 h
    obtain ⟨names, hnames⟩ := ih hrest
    refine ⟨name :: names, ?_⟩
    rw [List.mapM_cons, hnames]
    rfl

/-- One name that is no text is enough for the names to have no texts. -/
theorem mapM_text?_eq_none {keys : List Value} {key : Value} (hkey : key ∈ keys)
    (h : ¬ key.IsText) : keys.mapM text? = none := by
  refine Option.eq_none_iff_forall_ne_some.2 fun names hnames => ?_
  induction keys generalizing names with
  | nil => cases hkey
  | cons first rest ih =>
    rw [List.mapM_cons, Option.bind_eq_bind, Option.bind_eq_some_iff] at hnames
    obtain ⟨name, hname, hnames⟩ := hnames
    rw [Option.bind_eq_bind, Option.bind_eq_some_iff] at hnames
    obtain ⟨others, hothers, -⟩ := hnames
    rcases List.mem_cons.1 hkey with rfl | hrest
    · rw [text?_eq_none_iff.2 h] at hname
      cases hname
    · exact ih hrest others hothers

/-- The keys of a dictionary that are not among the allowed fields. -/
def unknownFields (allowed : List String) (entries : Entries) : List Value :=
  (entries.map (·.1)).filter fun k => !allowed.any fun a => Value.keyEq k (.str a)

theorem mem_unknownFields {key : Value} :
    key ∈ unknownFields allowed entries ↔
      key ∈ entries.map (·.1) ∧ ∀ name ∈ allowed, key ≠ .str name := by
  simp [unknownFields, List.mem_filter, Value.keyEq_str_iff, ← Bool.not_eq_true]

/-- Fields are checked for being allowed: if one of them is no text there is a fault, and otherwise
they are allowed or refused. -/
theorem checkFields_eq_fault_iff :
    checkFields s allowed entries = .error (.fault f) ↔
      f = .kind ∧ ∃ key ∈ entries.map (·.1), ¬ key.IsText := by
  unfold checkFields
  rw [← unknownFields]
  by_cases h : ∃ key ∈ entries.map (·.1), ¬ key.IsText
  · obtain ⟨key, hkey, htext⟩ := h
    have hunknown : key ∈ unknownFields allowed entries :=
      mem_unknownFields.2 ⟨hkey, fun name _ hname => htext ⟨name, hname⟩⟩
    dsimp only
    rw [mapM_text?_eq_none hunknown htext]
    constructor
    · intro hfault
      obtain rfl : Fault.kind = f := Failure.fault.inj (Except.error.inj hfault)
      exact ⟨rfl, key, hkey, htext⟩
    · rintro ⟨rfl, -⟩
      rfl
  · have htexts : ∀ key ∈ unknownFields allowed entries, key.IsText := by
      intro key hkey
      exact Classical.byContradiction fun hno => h ⟨key, (mem_unknownFields.1 hkey).1, hno⟩
    obtain ⟨names, hnames⟩ := exists_mapM_text? htexts
    dsimp only
    rw [hnames]
    refine ⟨fun hfault => ?_, fun hkind => absurd hkind.2 h⟩
    -- a refusal that only names fields quotes nothing
    cases names with
    | nil => cases hfault
    | cons name names =>
      obtain ⟨-, hwritable⟩ := refuse_eq_fault_iff.1 hfault
      exact absurd rfl hwritable

/-- The check of a field is a fault exactly if it refuses a value that cannot be written. -/
theorem checkField_eq_fault_iff {field : String} {p : Value → Option Invalid} :
    checkField entries field p = .error (.fault f) ↔
      f = .digits ∧ ∃ w fault, field? field entries = some w ∧ p w = some fault ∧
        ¬ fault.Writable := by
  unfold checkField
  cases hp : (field? field entries).bind p with
  | none =>
    refine ⟨nofun, ?_⟩
    rintro ⟨-, w, fault, hw, hfault, -⟩
    rw [hw, Option.bind_some, hfault] at hp
    cases hp
  | some fault =>
    obtain ⟨w, hw, hfault⟩ := Option.bind_eq_some_iff.1 hp
    rw [refuse_eq_fault_iff]
    refine and_congr_right fun _ => ?_
    constructor
    · intro h
      exact ⟨w, fault, hw, hfault, h⟩
    · rintro ⟨w', fault', hw', hfault', h⟩
      obtain rfl : w = w' := Option.some.inj (hw.symm.trans hw')
      obtain rfl : fault = fault' := Option.some.inj (hfault.symm.trans hfault')
      exact h

/-! ## Sections -/

/-- A section has a field that is no text, where only some fields are allowed. -/
def Section.HasOddField (s : Section) (v : Value) : Prop :=
  ∃ entries, v = .dict entries ∧ s.fieldNames? ≠ none ∧
    ∃ key ∈ entries.map (·.1), ¬ key.IsText

/-- The first field of a section that does not hold what it should holds something that a refusal
cannot quote. -/
def Section.HasUnwritable (s : Section) (v : Value) : Prop :=
  ∃ entries, v = .dict entries ∧ s.Allows entries ∧
    ∃ before field after w fault, s.fields = before ++ field :: after ∧
      (∀ earlier ∈ before, checkField entries earlier.1 earlier.2 = .ok ()) ∧
      field? field.1 entries = some w ∧ field.2 w = some fault ∧ ¬ fault.Writable

/-- The check of names is a fault exactly if some name is no text, in a section that has a list of
names. -/
theorem checkNames_eq_fault_iff :
    s.checkNames entries = .error (.fault f) ↔
      f = .kind ∧ s.fieldNames? ≠ none ∧ ∃ key ∈ entries.map (·.1), ¬ key.IsText := by
  unfold Section.checkNames
  cases s.fieldNames? with
  | none => exact ⟨nofun, fun h => absurd rfl h.2.1⟩
  | some allowed => simp [checkFields_eq_fault_iff]

/-- The two ways in which the check of a section is a fault. -/
theorem checkSection_eq_fault_iff :
    checkSection s v = .error (.fault f) ↔
      (f = .kind ∧ s.HasOddField v) ∨ (f = .digits ∧ s.HasUnwritable v) := by
  by_cases hdict : v.IsDict
  case neg =>
    -- only a dictionary gets beyond the check of its shape, which quotes nothing
    have hshape : checkSection s v = refuse (.sectionShape s) := by
      cases v with
      | dict entries => exact absurd ⟨entries, rfl⟩ hdict
      | null | bool _ | int _ | real _ | str _ | list _ | tuple _ | set _ => cases s <;> rfl
    rw [hshape, refuse_eq_fault_iff]
    refine ⟨fun h => absurd rfl h.2, ?_⟩
    rintro (⟨-, entries, rfl, -⟩ | ⟨-, entries, rfl, -⟩)
    · exact absurd ⟨entries, rfl⟩ hdict
    · exact absurd ⟨entries, rfl⟩ hdict
  case pos =>
    obtain ⟨entries, rfl⟩ := hdict
    rw [checkSection_dict_eq, Outcome.check_seq_eq_error, checkNames_eq_fault_iff,
      checkNames_eq_ok_iff, Outcome.forM_eq_error_iff]
    simp only [checkField_eq_fault_iff]
    refine or_congr ?_ ?_
    · simp only [Section.HasOddField, Value.dict.injEq, exists_eq_left']
    · constructor
      · rintro ⟨hallows, before, field, after, hfields, hbefore, rfl, w, fault, hw⟩
        exact ⟨rfl, entries, rfl, hallows, before, field, after, w, fault, hfields, hbefore, hw⟩
      · rintro ⟨rfl, entries', hentries, hallows, before, field, after, w, fault, hfields,
          hbefore, hw⟩
        obtain rfl := Value.dict.inj hentries
        exact ⟨hallows, before, field, after, hfields, hbefore, rfl, w, fault, hw⟩

/-! ## Configurations -/

/-- The first section of a configuration that does not pass its check has a property. -/
def FirstSection (P : Section → Value → Prop) (v : Value) : Prop :=
  ∃ entries sections before s after w, v = .dict entries ∧
    (field? rootKey entries).getD (.dict entries) = .dict sections ∧
    Section.inOrder = before ++ s :: after ∧
    (∀ earlier ∈ before, checkSectionOf sections earlier = .ok ()) ∧
    field? s.key sections = some w ∧ P s w

theorem checkSectionOf_eq_fault_iff :
    checkSectionOf sections s = .error (.fault f) ↔
      ∃ w, field? s.key sections = some w ∧ checkSection s w = .error (.fault f) := by
  unfold checkSectionOf
  cases hw : field? s.key sections with
  | none => exact ⟨nofun, fun ⟨w, h, _⟩ => nomatch h⟩
  | some w => simp

theorem firstSection_and_iff {P : Section → Value → Prop} {R : Prop} :
    FirstSection (fun s w => R ∧ P s w) v ↔ R ∧ FirstSection P v := by
  constructor
  · rintro ⟨entries, sections, before, s, after, w, hv, hroot, horder, hbefore, hw, hR, hP⟩
    exact ⟨hR, entries, sections, before, s, after, w, hv, hroot, horder, hbefore, hw, hP⟩
  · rintro ⟨hR, entries, sections, before, s, after, w, hv, hroot, horder, hbefore, hw, hP⟩
    exact ⟨entries, sections, before, s, after, w, hv, hroot, horder, hbefore, hw, hR, hP⟩

theorem firstSection_or_iff {P Q : Section → Value → Prop} :
    FirstSection (fun s w => P s w ∨ Q s w) v ↔ FirstSection P v ∨ FirstSection Q v := by
  constructor
  · rintro ⟨entries, sections, before, s, after, w, hv, hroot, horder, hbefore, hw, hP | hQ⟩
    · exact .inl ⟨entries, sections, before, s, after, w, hv, hroot, horder, hbefore, hw, hP⟩
    · exact .inr ⟨entries, sections, before, s, after, w, hv, hroot, horder, hbefore, hw, hQ⟩
  · rintro (⟨entries, sections, before, s, after, w, hv, hroot, horder, hbefore, hw, hP⟩ |
      ⟨entries, sections, before, s, after, w, hv, hroot, horder, hbefore, hw, hQ⟩)
    · exact ⟨entries, sections, before, s, after, w, hv, hroot, horder, hbefore, hw, .inl hP⟩
    · exact ⟨entries, sections, before, s, after, w, hv, hroot, horder, hbefore, hw, .inr hQ⟩

/-- A fault of the check comes from the first section that does not pass. -/
theorem check_eq_fault_iff_firstSection :
    check v = .error (.fault f) ↔
      FirstSection (fun s w => checkSection s w = .error (.fault f)) v := by
  by_cases hsections : ∃ entries sections, v = .dict entries ∧
      (field? rootKey entries).getD (.dict entries) = .dict sections
  · obtain ⟨entries, sections, rfl, hroot⟩ := hsections
    rw [check_dict_eq hroot, Outcome.forM_eq_error_iff]
    simp only [checkSectionOf_eq_fault_iff]
    constructor
    · rintro ⟨before, s, after, horder, hbefore, w, hw, hfault⟩
      exact ⟨entries, sections, before, s, after, w, rfl, hroot, horder, hbefore, hw, hfault⟩
    · rintro ⟨entries', sections', before, s, after, w, hv, hroot', horder, hbefore, hw, hfault⟩
      obtain rfl := Value.dict.inj hv
      obtain rfl := Value.dict.inj (hroot.symm.trans hroot')
      exact ⟨before, s, after, horder, hbefore, w, hw, hfault⟩
  · -- what has no sections is refused for its shape, and nothing is quoted
    have hshape : ∃ fault : Invalid, fault.Writable ∧ check v = refuse fault := by
      cases v with
      | dict entries =>
        refine ⟨.rootShape, rfl, ?_⟩
        rw [check]
        cases hroot : (field? rootKey entries).getD (.dict entries) with
        | dict sections => exact absurd ⟨entries, sections, rfl, hroot⟩ hsections
        | null | bool _ | int _ | real _ | str _ | list _ | tuple _ | set _ => rfl
      | null | bool _ | int _ | real _ | str _ | list _ | tuple _ | set _ =>
        exact ⟨.shape, rfl, rfl⟩
    obtain ⟨fault, hwritable, hcheck⟩ := hshape
    rw [hcheck, refuse_eq_fault_iff]
    refine ⟨fun h => absurd hwritable h.2, ?_⟩
    rintro ⟨entries, sections, before, s, after, w, hv, hroot, -⟩
    exact absurd ⟨entries, sections, hv, hroot⟩ hsections

/-- There are two faults, and either has its own cause. -/
theorem check_eq_fault_iff :
    check v = .error (.fault f) ↔
      (f = .kind ∧ FirstSection Section.HasOddField v) ∨
        (f = .digits ∧ FirstSection Section.HasUnwritable v) := by
  simp only [check_eq_fault_iff_firstSection, checkSection_eq_fault_iff, firstSection_or_iff,
    firstSection_and_iff]

/-! ## Loading -/

namespace Store

variable {st : Store} {source : Source}

/-- How loading data into a source ends, and the store afterwards. -/
inductive Loads (st : Store) (source : Source) (v : Value) : Outcome Error Store → Store → Prop
  /-- The data have taken the place of the tree of the source. -/
  | loaded {entries : Entries} {st' : Store} (hv : v = .dict entries) (hcheck : check v = .ok ())
    (hsource : st'.tree source = some (wrap entries))
    (hothers : ∀ t, t ≠ source → st'.tree t = st.tree t) : Loads st source v (.ok st') st'
  | refused {fault : Invalid} (hcheck : check v = .error (.refused fault)) :
    Loads st source v (.error (.refused (.invalid source.text fault))) st
  /-- A field that is not allowed cannot be named. -/
  | oddField (h : FirstSection Section.HasOddField v) :
    Loads st source v (.error (.fault .kind)) st
  /-- A setting cannot be quoted. -/
  | unwritable (h : FirstSection Section.HasUnwritable v) :
    Loads st source v (.error (.fault .digits)) st

/-- What is loaded is checked, and nothing else can fail. -/
theorem loadFrom_of_check_eq_error {origin : String} (h : check v = .error e) :
    st.loadFrom origin v source = .error (e.map (.invalid origin)) := by
  unfold loadFrom checkFrom
  rw [h]
  rfl

/-- Data that pass the check are loaded. -/
theorem loadFrom_of_check_eq_ok {origin : String} (h : check (.dict entries) = .ok ()) :
    st.loadFrom origin (.dict entries) source = .ok (st.replace source (wrap entries)) := by
  unfold loadFrom checkFrom
  rw [h]
  rfl

/-- What loading does, case by case. -/
theorem loads_load (st : Store) (source : Source) (v : Value) :
    Loads st source v (st.load v source) (st.after (st.load v source)) := by
  cases hcheck : check v with
  | ok u =>
    -- only a dictionary passes the check
    obtain ⟨entries, rfl⟩ : v.IsDict := by
      cases v with
      | dict entries => exact ⟨entries, rfl⟩
      | null | bool _ | int _ | real _ | str _ | list _ | tuple _ | set _ => cases hcheck
    have hload : st.load (.dict entries) source = .ok (st.replace source (wrap entries)) :=
      loadFrom_of_check_eq_ok hcheck
    rw [hload]
    exact .loaded rfl hcheck (if_pos rfl) fun t ht => if_neg ht
  | error e =>
    have hload : st.load v source = .error (e.map (.invalid source.text)) :=
      loadFrom_of_check_eq_error hcheck
    rw [hload]
    cases e with
    | refused fault => exact .refused hcheck
    | fault f =>
      rcases check_eq_fault_iff.1 hcheck with ⟨rfl, h⟩ | ⟨rfl, h⟩
      · exact .oddField h
      · exact .unwritable h

end Store

end ModulePath.Config
