import Mathlib.Logic.Relation
import ModulePath.Proofs.Config.Reachable
import ModulePath.Proofs.Config.SectionWise
import ModulePath.Proofs.Config.Sections

/-!
# Valid configurations stay valid

A source gets a tree only from a configuration that passes the check. Laid over one another, two
sections that pass the check of their section make one that passes it (`checkSection_overlayAll`):
its keys come from one of the two, and each of its fields is that of one of the two as it stands
there, since no field may hold a dictionary. So do whole configurations, section by section, whether
they are written under the root key or not (`hasSections_wrap`). Whatever is loaded or cleared, the
merged configuration therefore passes the check (`validate_of_attempts`).
-/

set_option autoImplicit false

namespace ModulePath.Config

open Value (DistinctTexts WellKeyed field?)

variable {s : Section} {entries lower upper : Entries}

/-! ## What the check of a section requires -/

/-- The fields that a section may have, if not all are allowed. -/
def Section.fieldNames? : Section → Option (List String)
  | .layers => some ["config_file", "layers_path", "add_ons_path", "overlays_dir"]
  | .cache => some ["enabled", "max_patterns"]
  | .logging => none

/-- The fields of a section that are checked, each with what is wrong with a value. -/
def Section.fields : Section → List (String × (Value → Option Invalid))
  | .layers =>
    [("layers_path", layersPathFault? "layers_path"),
      ("add_ons_path", layersPathFault? "add_ons_path"),
      ("config_file", layersNameFault? "config_file"),
      ("overlays_dir", layersNameFault? "overlays_dir")]
  | .cache => [("enabled", cacheEnabledFault?), ("max_patterns", cacheSizeFault?)]
  | .logging => [("level", logLevelFault?), ("file", logFileFault?)]

/-- The keys of a dictionary are fields that a section may have. -/
def Section.Allows (s : Section) (entries : Entries) : Prop :=
  ∀ names, s.fieldNames? = some names →
    ∀ key ∈ entries.map (·.1), ∃ name ∈ names, key = .str name

/-- The fields of a dictionary hold what they should in a section. -/
def Section.Accepts (s : Section) (entries : Entries) : Prop :=
  ∀ f ∈ s.fields, ∀ v, field? f.1 entries = some v → f.2 v = none

theorem checkFields_eq_ok_iff {allowed : List String} :
    checkFields s allowed entries = .ok () ↔
      ∀ key ∈ entries.map (·.1), ∃ name ∈ allowed, key = .str name := by
  have hnone : (∀ key ∈ entries.map (·.1), ∃ name ∈ allowed, key = .str name) ↔
      ((entries.map (·.1)).filter fun key =>
        !allowed.any fun name => Value.keyEq key (.str name)) = [] := by
    simp only [List.filter_eq_nil_iff, Bool.not_eq_true', Bool.not_eq_false, List.any_eq_true,
      Value.keyEq_str_iff]
  rw [hnone, checkFields]
  generalize ((entries.map (·.1)).filter fun key =>
    !allowed.any fun name => Value.keyEq key (.str name)) = unknown
  cases unknown with
  | nil => simp
  | cons key rest =>
    -- an unknown key is refused, or else it cannot be written down
    rw [iff_false_right (List.cons_ne_nil key rest)]
    intro h
    cases hnames : (key :: rest).mapM text? with
    | none =>
      rw [hnames] at h
      exact Outcome.fault_ne_ok h
    | some names =>
      rw [hnames] at h
      cases names with
      | nil =>
        simp [List.mapM_cons, Option.bind_eq_some_iff] at hnames
      | cons name names => exact refuse_ne_ok h

/-- The check of the names of all fields of a section. -/
def Section.checkNames (s : Section) (entries : Entries) : Outcome Invalid Unit :=
  match s.fieldNames? with
  | some allowed => checkFields s allowed entries
  | none => .ok ()

/-- A section is checked by its names and then field by field. -/
theorem checkSection_dict_eq :
    checkSection s (.dict entries) =
      (s.checkNames entries >>= fun _ =>
        forM s.fields fun field => checkField entries field.1 field.2) := by
  cases s with
  | layers =>
    simp only [checkSection, checkLayers, Section.checkNames, Section.fieldNames?, Section.fields,
      List.forM_cons, List.forM_nil, Outcome.bind_pure_unit]
  | cache =>
    simp only [checkSection, checkCache, Section.checkNames, Section.fieldNames?, Section.fields,
      List.forM_cons, List.forM_nil, Outcome.bind_pure_unit]
  | logging =>
    simp only [checkSection, checkLogging, Section.checkNames, Section.fieldNames?, Section.fields,
      List.forM_cons, List.forM_nil, Outcome.bind_pure_unit]
    rfl

theorem checkNames_eq_ok_iff : s.checkNames entries = .ok () ↔ s.Allows entries := by
  unfold Section.checkNames Section.Allows
  cases s.fieldNames? with
  | none => exact ⟨fun _ => nofun, fun _ => rfl⟩
  | some allowed =>
    simp only [checkFields_eq_ok_iff, Option.some.injEq, forall_eq']

/-- A section passes if its fields are allowed and their values accepted. -/
theorem checkSection_dict_eq_ok_iff :
    checkSection s (.dict entries) = .ok () ↔ s.Allows entries ∧ s.Accepts entries := by
  rw [checkSection_dict_eq, Outcome.check_seq_eq_ok, checkNames_eq_ok_iff, Outcome.forM_eq_ok_iff]
  simp only [checkField_eq_ok_iff, Section.Accepts]

/-- No field of a section may hold a dictionary. -/
theorem Section.not_isDict_of_fields {f : String × (Value → Option Invalid)} {v : Value}
    (hf : f ∈ s.fields) (hv : f.2 v = none) : ¬ v.IsDict := by
  rintro ⟨es, rfl⟩
  cases s with
  | layers =>
    simp only [Section.fields, List.mem_cons, List.not_mem_nil, or_false] at hf
    rcases hf with rfl | rfl | rfl | rfl <;> cases hv
  | cache | logging =>
    simp only [Section.fields, List.mem_cons, List.not_mem_nil, or_false] at hf
    rcases hf with rfl | rfl <;> cases hv

/-! ## Laying one section over another -/

/-- Sections that pass may be laid over one another. -/
theorem checkSection_overlayAll (hkeys : DistinctTexts upper)
    (hlower : checkSection s (.dict lower) = .ok ())
    (hupper : checkSection s (.dict upper) = .ok ()) :
    checkSection s (.dict (overlayAll lower upper)) = .ok () := by
  obtain ⟨hallows, haccepts⟩ := checkSection_dict_eq_ok_iff.1 hlower
  obtain ⟨hallows', haccepts'⟩ := checkSection_dict_eq_ok_iff.1 hupper
  apply checkSection_dict_eq_ok_iff.2
  constructor
  · intro names hnames key hkey
    rcases mem_keys_overlayAll hkey with hmem | hmem
    · exact hallows names hnames key hmem
    · exact hallows' names hnames key hmem
  · intro f hf v hv
    have hdict : ∀ u, field? f.1 upper = some u → ¬ u.IsDict := fun u hu =>
      Section.not_isDict_of_fields hf (haccepts' f hf u hu)
    rw [field?_overlayAll_of_not_isDict hkeys hdict, Option.or_eq_some_iff] at hv
    rcases hv with hv | ⟨-, hv⟩
    · exact haccepts' f hf v hv
    · exact haccepts f hf v hv

/-- A section passes the check of its section. -/
def Section.Passes (s : Section) (entries : Entries) : Prop :=
  checkSection s (.dict entries) = .ok ()

theorem keptByOverlay_passes : KeptByOverlay Section.Passes :=
  fun _ _ _ hkeys hlower hupper =>
    checkSection_overlayAll (Value.wellKeyed_dict_iff.1 hkeys).1 hlower hupper

/-! ## Laying one configuration over another -/

/-- The sections stand under the root key, and all of them pass their checks. -/
def HasSections (entries : Entries) : Prop :=
  ∃ sections, field? rootKey entries = some (.dict sections) ∧
    ∀ s, checkSectionOf sections s = .ok ()

/-- Each section that is there passes its check. -/
theorem hasSections_iff : HasSections entries ↔ SectionWise Section.Passes entries := by
  unfold HasSections SectionWise
  refine exists_congr fun sections => and_congr_right fun _ => forall_congr' fun s => ?_
  constructor
  · intro h w hw
    rcases checkSectionOf_eq_ok h with ⟨fields, hfields, hpasses⟩ | hnone
    · exact ⟨fields, Option.some.inj (hw.symm.trans hfields), hpasses⟩
    · rw [hnone] at hw
      cases hw
  · intro h
    unfold checkSectionOf
    cases hfield : field? s.key sections with
    | none => rfl
    | some w =>
      obtain ⟨fields, rfl, hpasses⟩ := h w hfield
      exact hpasses

theorem HasSections.check (h : HasSections entries) : check (.dict entries) = .ok () := by
  obtain ⟨sections, hroot, hsections⟩ := h
  apply check_dict_eq_ok_iff.2
  rw [hroot]
  exact ⟨sections, rfl, hsections⟩

/-- Both ways to write a configuration come to the same. -/
theorem hasSections_wrap (h : Config.check (.dict entries) = .ok ()) :
    HasSections (Store.wrap entries) := by
  obtain ⟨sections, hroot, hsections⟩ := check_dict_eq_ok_iff.1 h
  cases hfield : field? rootKey entries with
  | none =>
    rw [hfield, Option.getD_none] at hroot
    have hwrap : Store.wrap entries = [(.str rootKey, .dict entries)] := by
      simp [Store.wrap, Value.hasField, hfield]
    rw [hwrap]
    exact ⟨sections, by rw [Value.field?_cons_self, hroot], hsections⟩
  | some v =>
    rw [hfield, Option.getD_some] at hroot
    have hwrap : Store.wrap entries = entries := by
      simp [Store.wrap, Value.hasField, hfield]
    rw [hwrap]
    exact ⟨sections, by rw [hfield, hroot], hsections⟩

/-! ## Stores -/

namespace Store

variable {st st' : Store} {source : Source} {v : Value}

/-- The trees of all sources come from configurations that pass the check. -/
def Checked (st : Store) : Prop :=
  ∀ source tree, st.tree source = some tree → ∃ entries, (Value.dict entries).WellKeyed ∧
    check (.dict entries) = .ok () ∧ tree = wrap entries

/-- A configuration whose trees pass is valid as a whole. -/
theorem Checked.validate (hst : st.Checked) : st.validate = .ok () := by
  have htrees : ∀ tree ∈ Source.ascending.filterMap st.tree,
      (Value.dict tree).WellKeyed ∧ SectionWise Section.Passes tree := by
    intro tree htree
    obtain ⟨source, -, hsource⟩ := List.mem_filterMap.1 htree
    obtain ⟨entries, hkeys, hcheck, rfl⟩ := hst source tree hsource
    exact ⟨wellKeyed_wrap hkeys, hasSections_iff.1 (hasSections_wrap hcheck)⟩
  have hcheck : check st.merged = .ok () := by
    rcases sectionWise_foldl keptByOverlay_passes htrees (.inl rfl) with hnil | hsections
    · rw [merged, mergedEntries, hnil]
      rfl
    · exact (hasSections_iff.2 hsections).check
  exact Outcome.mapCause_eq_ok.2 hcheck

/-! ### Operations -/

theorem checked_initial : initial.Checked := by
  intro source tree htree
  refine ⟨tree, wellKeyed_initial source tree htree, ?_⟩
  simp only [initial] at htree
  split at htree
  case isTrue =>
    obtain rfl := Option.some.inj htree
    exact ⟨rfl, rfl⟩
  case isFalse => cases htree

/-- What is loaded has passed the check. -/
theorem Checked.loadFrom {origin : String} (hst : st.Checked) (hv : v.WellKeyed)
    (h : st.loadFrom origin v source = .ok st') : st'.Checked := by
  obtain ⟨hcheck, h⟩ := Outcome.check_seq_eq_ok.1 h
  cases v with
  | dict entries =>
    obtain rfl := Except.ok.inj h
    intro other tree htree
    simp only [Store.replace] at htree
    split at htree
    case isTrue =>
      obtain rfl := Option.some.inj htree
      exact ⟨entries, hv, Outcome.mapCause_eq_ok.1 hcheck, rfl⟩
    case isFalse => exact hst other tree htree
  | null | bool _ | int _ | real _ | str _ | list _ | tuple _ | set _ =>
    obtain rfl := Except.ok.inj h
    exact hst

theorem Checked.loadFile {σ : Type} {w : World σ} {y z : σ} {yaml : Yaml.Reader} {file : String}
    (hst : st.Checked) (h : (st.loadFile yaml file source).run w y = (.ok st', z)) :
    st'.Checked := by
  obtain ⟨entries, hkeys, hload⟩ := exists_loadFrom_of_loadFile h
  exact hst.loadFrom hkeys hload

theorem Checked.clear (hst : st.Checked) (source : Source) : (st.clear source).Checked := by
  intro other tree htree
  simp only [Store.clear] at htree
  split at htree
  case isTrue => cases htree
  case isFalse => exact hst other tree htree

theorem Checked.clearAll (hst : st.Checked) : st.clearAll.Checked := by
  intro other tree htree
  simp only [Store.clearAll] at htree
  split at htree
  case isTrue => exact hst other tree htree
  case isFalse => cases htree

/-! ### Runs -/

/-- The store after an operation on it. An operation that fails leaves it as it is. -/
def after {ε : Type} (st : Store) : Except ε Store → Store
  | .ok st' => st'
  | .error _ => st

/-- One operation that loads or clears something, whether it succeeds or not. Data can be loaded
if they are well keyed, as all dictionaries are that can be made. -/
inductive Attempt (st : Store) : Store → Prop
  | load {v : Value} {s : Source} (hv : v.WellKeyed) : Attempt st (st.after (st.load v s))
  | loadFile {σ : Type} (w : World σ) (y : σ) (yaml : Yaml.Reader) (file : String)
    (source : Source) : Attempt st (st.after ((st.loadFile yaml file source).run w y).1)
  | clear (source : Source) : Attempt st (st.clear source)
  | clearAll : Attempt st st.clearAll

/-- An attempt leaves every tree checked, whether it succeeds or fails. -/
theorem Attempt.checked (hst : st.Checked) (h : Attempt st st') : st'.Checked := by
  cases h with
  | @load v source hv =>
    cases hload : st.load v source with
    | ok st' => exact hst.loadFrom hv hload
    | error _ => exact hst
  | loadFile w y yaml file source =>
    cases hload : (st.loadFile yaml file source).run w y with
    | mk r z =>
      cases r with
      | ok st' => exact hst.loadFile hload
      | error _ => exact hst
  | clear source => exact hst.clear source
  | clearAll => exact hst.clearAll

/-- Every tree is checked after any number of attempts. -/
theorem checked_of_attempts (hst : st.Checked) (h : Relation.ReflTransGen Attempt st st') :
    st'.Checked := by
  induction h with
  | refl => exact hst
  | tail _ hstep ih => exact hstep.checked ih

/-- A store that begins without settings from the environment has a valid merged configuration,
whatever is loaded into it and cleared from it. -/
theorem validate_of_attempts {σ : Type} {w : World σ} {y z : σ} {yaml : Yaml.Reader}
    {file : Option String} {start st : Store}
    (hstart : (ofFile yaml file []).run w y = (.ok start, z))
    (hrun : Relation.ReflTransGen Attempt start st) : st.validate = .ok () := by
  have hchecked : start.Checked := by
    simp only [ofFile] at hstart
    split at hstart
    case h_1 =>
      obtain ⟨loaded, y₁, hload, hstart⟩ := Program.run_bind_eq_ok.1 hstart
      obtain rfl := Except.ok.inj (Prod.mk.inj hstart).1
      exact checked_initial.loadFile hload
    case h_2 =>
      obtain rfl := Except.ok.inj (Prod.mk.inj hstart).1
      exact checked_initial
  exact (checked_of_attempts hchecked hrun).validate

/-- Settings that are not written under the root key, with an entry that is no section. -/
def bareSettings : Entries :=
  [(.str "cache", .dict [(.str "max_patterns", .int 7)]), (.str "owner", .str "build")]

/-- Settings under the root key, with an entry beside it. -/
def rootedSettings : Entries :=
  [(.str "version", .int 2),
    (.str rootKey, .dict [(.str "cache", .dict [(.str "enabled", .bool false)])])]

/-- A store with settings of both kinds. -/
def mixedStore : Store :=
  (initial.replace .runtime (wrap bareSettings)).replace .user (wrap rootedSettings)

/-- Two sources get their settings, and then data and a file are refused. -/
theorem validate_mixedStore :
    (ofFile .builtIn none []).run (Tree.fileSystem {}).world () = (.ok initial, ()) ∧
      Relation.ReflTransGen Attempt initial mixedStore ∧ mixedStore.validate = .ok () := by
  have hstart : (ofFile .builtIn none []).run (Tree.fileSystem {}).world () = (.ok initial, ()) :=
    rfl
  have hscalar {v : Value} (hv : ¬ v.IsDict) (name : String) :
      (Value.dict [(.str name, v)]).WellKeyed :=
    Value.wellKeyed_nil.put (.other hv) (.str name)
  have hbare : (Value.dict bareSettings).WellKeyed :=
    (Value.wellKeyed_nil.put (hscalar (v := .int 7) nofun "max_patterns") (.str "cache")).put
      (.other (v := .str "build") nofun) (.str "owner")
  have hrooted : (Value.dict rootedSettings).WellKeyed :=
    (hscalar (v := .int 2) nofun "version").put
      (Value.wellKeyed_nil.put (hscalar (v := .bool false) nofun "enabled") (.str "cache"))
      (.str rootKey)
  have hrun : Relation.ReflTransGen Attempt initial mixedStore :=
    .tail (.tail (.tail (.single (.load hbare)) (.load (s := .user) hrooted))
      (.load (s := .arguments) (hscalar (v := .int 3) nofun "cache")))
      (.loadFile (Tree.fileSystem {}).world () .builtIn "missing.yaml" .system)
  exact ⟨hstart, hrun, validate_of_attempts hstart hrun⟩

end Store

end ModulePath.Config
