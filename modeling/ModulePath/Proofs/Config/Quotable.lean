import ModulePath.Config.Environment
import ModulePath.Proofs.Config.Faults
import ModulePath.Proofs.Number.Digits

/-!
# Settings that can be quoted

A configuration whose settings are right, or at least can be quoted, is accepted or refused, but
never leads to a fault (`SectionWise.check_ne_fault`). Such are the defaults, every configuration
that passes the check, and whatever an environment sets: the keys are texts there and the values
scalars, with no more digits than can be written (`quotable_loadEnvironment`). Laid over one another
they are such a configuration again, so the check of the merged configuration meets no fault
(`Store.Quotable.validate_ne_fault`).
-/

set_option autoImplicit false

namespace ModulePath.Config

open Value (DistinctTexts WellKeyed field?)

variable {s : Section} {entries lower upper : Entries} {v w : Value} {fault : Invalid} {f : Fault}

/-! ## Sections -/

/-- Whatever is wrong with a section, a refusal can say it: where the fields are checked they are
texts, and what a field holds is right or can be quoted. -/
structure Section.Quotable (s : Section) (entries : Entries) : Prop where
  names : s.fieldNames? ≠ none → ∀ key ∈ entries.map (·.1), key.IsText
  fields : ∀ field ∈ s.fields, ∀ w, field? field.1 entries = some w →
    ¬ w.IsDict ∧ ∀ fault, field.2 w = some fault → fault.Writable

theorem Section.Quotable.checkSection_ne_fault (h : s.Quotable entries) :
    checkSection s (.dict entries) ≠ .error (.fault f) := by
  intro hfault
  rcases checkSection_eq_fault_iff.1 hfault with ⟨-, es, hes, hnames, key, hkey, htext⟩ |
    ⟨-, es, hes, -, before, field, after, w, fault, hfields, -, hw, hwrong, hwritable⟩
  · obtain rfl := Value.dict.inj hes
    exact htext (h.names hnames key hkey)
  · obtain rfl := Value.dict.inj hes
    have hmem : field ∈ s.fields := by
      rw [hfields]
      exact List.mem_append_right _ List.mem_cons_self
    exact hwritable ((h.fields field hmem w hw).2 fault hwrong)

/-- What passes the check of a section can be quoted. -/
theorem quotable_of_passes (h : s.Passes entries) : s.Quotable entries := by
  obtain ⟨hallows, haccepts⟩ := checkSection_dict_eq_ok_iff.1 h
  refine ⟨fun hnames key hkey => ?_, fun field hfield w hw => ?_⟩
  · obtain ⟨names, hsome⟩ := Option.ne_none_iff_exists'.1 hnames
    obtain ⟨name, -, hname⟩ := hallows names hsome key hkey
    exact ⟨name, hname⟩
  · have hright : field.2 w = none := haccepts field hfield w hw
    refine ⟨Section.not_isDict_of_fields hfield hright, fun fault hwrong => ?_⟩
    rw [hright] at hwrong
    cases hwrong

/-- A refusal of what a field holds quotes that or nothing. -/
theorem data?_of_fields {field : String × (Value → Option Invalid)} (hfield : field ∈ s.fields)
    (h : field.2 w = some fault) : fault.data? = none ∨ fault.data? = some w := by
  -- faults of the layers quote nothing, and those of the other sections the value itself
  cases s with
  | layers =>
    left
    simp only [Section.fields, List.mem_cons, List.not_mem_nil, or_false] at hfield
    rcases hfield with rfl | rfl | rfl | rfl
    all_goals
      simp only [layersPathFault?, layersNameFault?] at h
      split at h
      · cases h
      · obtain rfl := Option.some.inj h
        rfl
  | cache =>
    right
    simp only [Section.fields, List.mem_cons, List.not_mem_nil, or_false] at hfield
    rcases hfield with rfl | rfl
    · cases w <;> cases h <;> rfl
    · cases w with
      | int n =>
        simp only [cacheSizeFault?] at h
        split at h
        · cases h
        · obtain rfl := Option.some.inj h
          rfl
      | null | bool _ | real _ | str _ | list _ | tuple _ | set _ | dict _ =>
        cases h
        rfl
  | logging =>
    right
    simp only [Section.fields, List.mem_cons, List.not_mem_nil, or_false] at hfield
    rcases hfield with rfl | rfl
    · cases w with
      | str name =>
        simp only [logLevelFault?] at h
        split at h
        · cases h
        · obtain rfl := Option.some.inj h
          rfl
      | null | bool _ | int _ | real _ | list _ | tuple _ | set _ | dict _ => cases h <;> rfl
    · cases w <;> cases h <;> rfl

/-- Entries with texts as keys and scalars that can be written as values. -/
def Plain (entries : Entries) : Prop :=
  ∀ e ∈ entries, e.1.IsText ∧ ¬ e.2.IsDict ∧ e.2.hasText = true

theorem plain_nil : Plain [] := List.forall_mem_nil _

theorem Plain.put (h : Plain entries) (hv : ¬ v.IsDict) (htext : v.hasText = true)
    (name : String) : Plain (Value.put (.str name) v entries) := by
  induction entries with
  | nil => exact List.forall_mem_singleton.2 ⟨⟨name, rfl⟩, hv, htext⟩
  | cons e rest ih =>
    obtain ⟨he, hrest⟩ := List.forall_mem_cons.1 h
    rw [Value.put]
    split
    · exact List.forall_mem_cons.2 ⟨⟨he.1, hv, htext⟩, hrest⟩
    · exact List.forall_mem_cons.2 ⟨he, ih hrest⟩

/-- Plain entries can be quoted in any section. -/
theorem Plain.quotable (h : Plain entries) (s : Section) : s.Quotable entries := by
  refine ⟨fun _ key hkey => ?_, fun field hfield w hw => ?_⟩
  · obtain ⟨e, he, rfl⟩ := List.mem_map.1 hkey
    exact (h e he).1
  · obtain ⟨-, hdict, htext⟩ := h _ (Value.mem_of_field?_eq_some hw)
    refine ⟨hdict, fun fault hwrong => ?_⟩
    unfold Invalid.Writable
    rcases data?_of_fields hfield hwrong with hdata | hdata
    · rw [hdata]
      rfl
    · rw [hdata]
      exact htext

theorem keptByOverlay_quotable : KeptByOverlay Section.Quotable := by
  intro s lower upper hkeys hlower hupper
  have hdistinct := (Value.wellKeyed_dict_iff.1 hkeys).1
  refine ⟨fun hnames key hkey => ?_, fun field hfield w hw => ?_⟩
  · rcases mem_keys_overlayAll hkey with hkey | hkey
    · exact hlower.names hnames key hkey
    · exact hupper.names hnames key hkey
  · have hdict : ∀ u, field? field.1 upper = some u → ¬ u.IsDict := fun u hu =>
      (hupper.fields field hfield u hu).1
    rw [field?_overlayAll_of_not_isDict hdistinct hdict, Option.or_eq_some_iff] at hw
    rcases hw with hw | ⟨-, hw⟩
    · exact hupper.fields field hfield w hw
    · exact hlower.fields field hfield w hw

/-! ## Configurations -/

/-- What holds of the sections is weakened section by section. -/
theorem SectionWise.imp {P Q : Section → Entries → Prop} (h : SectionWise P entries)
    (hPQ : ∀ s fields, P s fields → Q s fields) : SectionWise Q entries := by
  obtain ⟨sections, hroot, hsections⟩ := h
  refine ⟨sections, hroot, fun s w hw => ?_⟩
  obtain ⟨fields, hfields, hP⟩ := hsections s w hw
  exact ⟨fields, hfields, hPQ s fields hP⟩

/-- A configuration that can be quoted meets no fault. -/
theorem SectionWise.check_ne_fault (h : SectionWise Section.Quotable entries) :
    check (.dict entries) ≠ .error (.fault f) := by
  obtain ⟨sections, hroot, hsections⟩ := h
  intro hfault
  obtain ⟨es, sections', before, s, after, w, hes, hroot', -, -, hw, hsection⟩ :=
    check_eq_fault_iff_firstSection.1 hfault
  obtain rfl := Value.dict.inj hes
  rw [hroot, Option.getD_some] at hroot'
  obtain rfl := Value.dict.inj hroot'
  obtain ⟨fields, rfl, hquotable⟩ := hsections s w hw
  exact hquotable.checkSection_ne_fault hsection

/-! ## Environments -/

namespace Environment

/-- A number that is too long to be written has more digits than any that is read. -/
theorem unwritable_eq : Value.unwritable = Nat.pow 10 Numeral.maxDigits := by decide +kernel

/-- The setting that a variable stands for can be written. -/
theorem hasText_settingOf (text : String) : (settingOf text).hasText = true := by
  rcases Store.settingOf_cases text with ⟨b, hv⟩ | ⟨n, hn, hv⟩ | ⟨d, hv⟩ | hv
  · rw [hv]
    rfl
  · rw [hv, Value.hasText, decide_eq_true_eq, unwritable_eq]
    exact Numeral.natAbs_lt_of_integer? hn
  · rw [hv]
    rfl
  · rw [hv]
    rfl

/-- What stands under the keys of an environment: sections with plain entries. -/
def PlainSections (sections : Entries) : Prop :=
  ∀ name w, field? name sections = some w → ∃ fields, w = .dict fields ∧ Plain fields

theorem plain_entriesOf {sections : Entries} (h : PlainSections sections) (name : String) :
    Plain (entriesOf name sections) := by
  unfold entriesOf
  split
  case h_1 fields hfields =>
    obtain ⟨fields', heq, hplain⟩ := h name _ hfields
    obtain rfl := Value.dict.inj heq
    exact hplain
  case h_2 => exact plain_nil

theorem PlainSections.enter {sections : Entries} (h : PlainSections sections)
    (binding : String × String) : PlainSections (enter sections binding) := by
  unfold Environment.enter
  split
  case h_1 => exact h
  case h_2 sectionName field _ =>
    intro name w hw
    by_cases hname : sectionName = name
    · subst hname
      rw [Value.field?_put_self] at hw
      obtain rfl := Option.some.inj hw
      exact ⟨_, rfl, (plain_entriesOf h sectionName).put (Store.not_isDict_settingOf binding.2)
        (hasText_settingOf binding.2) field⟩
    · rw [Value.field?_put_of_ne fun heq => hname (Value.str.inj heq)] at hw
      exact h name w hw

/-- All that variables enter is plain. -/
theorem plainSections_sectionsOf (vars : Variables) : PlainSections (sectionsOf vars) := by
  -- the sections that are there so far are plain, whichever they are
  suffices hall : ∀ sections, PlainSections sections →
      PlainSections (vars.foldl Environment.enter sections) from
    hall [] fun name w hw => by cases hw
  induction vars with
  | nil => exact fun sections h => h
  | cons binding rest ih => exact fun sections h => ih _ (h.enter binding)

end Environment

/-! ## Stores -/

namespace Store

variable {st : Store} {source : Source}

/-- The configurations of all sources can be quoted. -/
def Quotable (st : Store) : Prop :=
  ∀ source tree, st.tree source = some tree →
    (Value.dict tree).WellKeyed ∧ SectionWise Section.Quotable tree

/-- Where all can be quoted, the check of the whole configuration is no fault. -/
theorem Quotable.validate_ne_fault (hst : st.Quotable) : st.validate ≠ .error (.fault f) := by
  have htrees : ∀ tree ∈ Source.ascending.filterMap st.tree,
      (Value.dict tree).WellKeyed ∧ SectionWise Section.Quotable tree := by
    intro tree htree
    obtain ⟨source, -, hsource⟩ := List.mem_filterMap.1 htree
    exact hst source tree hsource
  have hcheck : check st.merged ≠ .error (.fault f) := by
    -- what can be quoted in each tree can be quoted in the merged one
    rcases sectionWise_foldl keptByOverlay_quotable htrees (.inl rfl) with hnil | hsections
    · rw [merged, mergedEntries, hnil]
      exact fun h => by cases h
    · exact hsections.check_ne_fault
  unfold validate checkFrom
  cases hmerged : check st.merged with
  | ok u => exact fun h => by cases h
  | error e =>
    cases e with
    | refused fault => exact fun h => by cases h
    | fault g =>
      intro h
      obtain rfl : g = f := Failure.fault.inj (Except.error.inj h)
      exact hcheck hmerged

/-- A tree whose sections can be quoted does no harm. -/
theorem Quotable.replace (hst : st.Quotable) (hkeys : (Value.dict entries).WellKeyed)
    (h : SectionWise Section.Quotable entries) (source : Source) :
    (st.replace source entries).Quotable := by
  intro t tree htree
  simp only [Store.replace] at htree
  split at htree
  case isTrue =>
    obtain rfl := Option.some.inj htree
    exact ⟨hkeys, h⟩
  case isFalse => exact hst t tree htree

/-- The configuration of a file that passes the check. -/
theorem Quotable.replace_wrap (hst : st.Quotable) (hkeys : (Value.dict entries).WellKeyed)
    (hcheck : check (.dict entries) = .ok ()) (source : Source) :
    (st.replace source (wrap entries)).Quotable :=
  hst.replace (wellKeyed_wrap hkeys)
    ((hasSections_iff.1 (hasSections_wrap hcheck)).imp fun _ _ => quotable_of_passes) source

theorem quotable_initial : initial.Quotable := by
  intro source tree htree
  obtain ⟨entries, hkeys, hcheck, rfl⟩ := checked_initial source tree htree
  exact ⟨wellKeyed_wrap hkeys,
    (hasSections_iff.1 (hasSections_wrap hcheck)).imp fun _ _ => quotable_of_passes⟩

theorem Quotable.loadEnvironment (hst : st.Quotable) (vars : Environment.Variables) :
    (st.loadEnvironment vars).Quotable := by
  unfold Store.loadEnvironment
  split
  case h_1 => exact hst
  case h_2 =>
    refine hst.replace (Value.wellKeyed_nil.put (wellKeyed_sectionsOf vars) (.str rootKey))
      ⟨_, Value.field?_cons_self, fun s w hw => ?_⟩ .environment
    obtain ⟨fields, rfl, hplain⟩ := Environment.plainSections_sectionsOf vars s.key w hw
    exact ⟨fields, rfl, hplain.quotable s⟩

end Store

end ModulePath.Config
