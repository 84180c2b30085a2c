import ModulePath.FileSystem.Tree
import ModulePath.Proofs.Config.Beside
import ModulePath.Proofs.Config.File
import ModulePath.Proofs.Yaml.Keys

/-!
# The stores that there can be

A store begins with the defaults, maybe a file and the environment, and then takes one step after
another (`Step`): a source gets its tree from a file or from data, a key gets a value, a source is
dropped. An operation that fails is no step, for it leaves the store as it is. Every step keeps the
trees well keyed (`Step.wellKeyed`), so in every store that there can be a setting of the merged
tree is the one that is looked up source by source (`get?_eq_of_merged`).
-/

set_option autoImplicit false

namespace ModulePath.Config

open Value (WellKeyed)

/-- A key has parts. -/
theorem exists_keyParts_eq_cons (key : String) : ∃ part rest, keyParts key = part :: rest := by
  have hne : ∀ cs, Text.splitAt '.' cs ≠ [] := by
    intro cs
    cases cs with
    | nil => exact List.cons_ne_nil _ _
    | cons c cs =>
      rw [Text.splitAt]
      split
      · exact List.cons_ne_nil _ _
      · split <;> exact List.cons_ne_nil _ _
  exact List.exists_cons_of_ne_nil fun h => hne _ (List.map_eq_nil_iff.1 h)

namespace Store

variable {st st' : Store} {s : Source} {key : String} {x v : Value} {entries : Entries}

/-! ## Single trees -/

theorem wellKeyed_wrap (h : (Value.dict entries).WellKeyed) :
    (Value.dict (wrap entries)).WellKeyed := by
  unfold wrap
  split
  case isTrue => exact h
  case isFalse => exact Value.wellKeyed_nil.put h (.str rootKey)

/-- A tree with distinct keys may replace another one. -/
theorem WellKeyed.replace (hst : st.WellKeyed) (h : (Value.dict entries).WellKeyed) (s : Source) :
    (st.replace s entries).WellKeyed := by
  intro t more hmore
  simp only [Store.replace] at hmore
  split at hmore
  case isTrue =>
    obtain rfl := Option.some.inj hmore
    exact h
  case isFalse => exact hst t more hmore

/-- A source without a tree counts as one with an empty tree. -/
theorem WellKeyed.getD (hst : st.WellKeyed) (s : Source) :
    (Value.dict ((st.tree s).getD [])).WellKeyed := by
  cases htree : st.tree s with
  | none => exact Value.wellKeyed_nil
  | some entries => exact hst s entries htree

/-- The induction is along the path. What stands there is well keyed, and a dictionary that is made
on the way is empty before. -/
theorem wellKeyed_assign {parts : List String} {r : Value} (hx : x.WellKeyed) (hv : v.WellKeyed)
    (h : assign x parts v = .ok r) : r.WellKeyed := by
  induction parts generalizing v r with
  | nil =>
    obtain rfl := Except.ok.inj h
    exact hx
  | cons part rest ih =>
    obtain ⟨entries, below, rfl, hassign, rfl⟩ := assign_cons_eq_ok h
    have hbelow : ((Value.field? part entries).getD (.dict [])).WellKeyed := by
      cases hfield : Value.field? part entries with
      | none => exact Value.wellKeyed_nil
      | some w => exact hv.of_field? hfield
    exact hv.put (ih hbelow hassign) (.str part)

/-! ## Operations -/

theorem wellKeyed_initial : initial.WellKeyed := by
  intro s entries h
  simp only [initial] at h
  split at h
  case isTrue =>
    obtain rfl := Option.some.inj h
    -- the keys of every section are told apart, and what they lead to are scalars
    simp only [defaultEntries, rootKey, Value.wellKeyed_dict_iff, Value.DistinctTexts, ne_eq,
      List.map_cons, List.map_nil, List.pairwise_cons, List.not_mem_nil, Value.str.injEq,
      forall_eq', IsEmpty.forall_iff, implies_true, List.Pairwise.nil, and_self, List.mem_cons,
      or_false, forall_eq, forall_eq_or_imp, String.reduceEq, not_false_eq_true, true_and]
    and_intros
    all_goals exact .other nofun
  case isFalse => cases h

/-- Data with distinct keys are loaded as a tree with distinct keys. -/
theorem WellKeyed.loadFrom {origin : String} (hst : st.WellKeyed) (hv : v.WellKeyed)
    (h : st.loadFrom origin v s = .ok st') : st'.WellKeyed := by
  obtain ⟨-, -, h⟩ := Outcome.seq_eq_ok.1 h
  cases v with
  | dict entries =>
    obtain rfl := Except.ok.inj h
    exact hst.replace (wellKeyed_wrap hv) s
  | null | bool _ | int _ | real _ | str _ | list _ | tuple _ | set _ =>
    obtain rfl := Except.ok.inj h
    exact hst

/-- A file is loaded as a tree with distinct keys, for the reader makes no others. -/
theorem WellKeyed.loadFile {σ : Type} {w : World σ} {y z : σ} {yaml : Yaml.Reader} {file : String}
    (hst : st.WellKeyed) (h : (st.loadFile yaml file s).run w y = (.ok st', z)) :
    st'.WellKeyed := by
  obtain ⟨entries, hkeys, hload⟩ := exists_loadFrom_of_loadFile h
  exact hst.loadFrom hkeys hload

/-- The inversion of a write: the source gets the tree with the value assigned. -/
theorem exists_of_set (h : st.set key x s = .ok st') :
    ∃ entries, assign x (keyParts key) (.dict ((st.tree s).getD [])) = .ok (.dict entries) ∧
      st' = st.replace s entries := by
  unfold Store.set at h
  cases hassign : assign x (keyParts key) (.dict ((st.tree s).getD [])) with
  | error f =>
    rw [hassign] at h
    cases h
  | ok r =>
    rw [hassign] at h
    obtain ⟨part, rest, hkey⟩ := exists_keyParts_eq_cons key
    rw [hkey] at hassign
    obtain ⟨entries, below, -, -, rfl⟩ := assign_cons_eq_ok hassign
    exact ⟨_, rfl, (Except.ok.inj h).symm⟩

/-- A value with distinct keys is set without a key that occurs twice. -/
theorem WellKeyed.set (hst : st.WellKeyed) (hx : x.WellKeyed) (h : st.set key x s = .ok st') :
    st'.WellKeyed := by
  obtain ⟨entries, hassign, rfl⟩ := exists_of_set h
  exact hst.replace (wellKeyed_assign hx (hst.getD s) hassign) s

theorem WellKeyed.clear (hst : st.WellKeyed) (s : Source) : (st.clear s).WellKeyed := by
  intro t entries h
  simp only [Store.clear] at h
  split at h
  case isTrue => cases h
  case isFalse => exact hst t entries h

theorem WellKeyed.clearAll (hst : st.WellKeyed) : st.clearAll.WellKeyed := by
  intro t entries h
  simp only [Store.clearAll] at h
  split at h
  case isTrue => exact hst t entries h
  case isFalse => cases h

/-- The value of a variable is a truth value, a number that its text is read as, or the text. -/
theorem settingOf_cases (text : String) :
    (∃ b, Environment.settingOf text = .bool b) ∨
      (∃ n, Numeral.integer? text = some n ∧ Environment.settingOf text = .int n) ∨
      (∃ d, Environment.settingOf text = .real d) ∨ Environment.settingOf text = .str text := by
  unfold Environment.settingOf
  dsimp only
  split
  case isTrue => exact .inl ⟨true, rfl⟩
  case isFalse =>
    split
    case isTrue => exact .inl ⟨false, rfl⟩
    case isFalse =>
      cases hinteger : Numeral.integer? text with
      | some n => exact .inr (.inl ⟨n, rfl, rfl⟩)
      | none =>
        cases Numeral.real? text with
        | some d => exact .inr (.inr (.inl ⟨d, rfl⟩))
        | none => exact .inr (.inr (.inr rfl))

theorem not_isDict_settingOf (text : String) : ¬ (Environment.settingOf text).IsDict := by
  rintro ⟨entries, h⟩
  rcases settingOf_cases text with ⟨b, hv⟩ | ⟨n, -, hv⟩ | ⟨d, hv⟩ | hv
  all_goals
    rw [hv] at h
    cases h

theorem wellKeyed_entriesOf {sections : Entries} (h : (Value.dict sections).WellKeyed)
    (name : String) : (Value.dict (Environment.entriesOf name sections)).WellKeyed := by
  unfold Environment.entriesOf
  split
  case h_1 hfield => exact h.of_field? hfield
  case h_2 => exact Value.wellKeyed_nil

theorem wellKeyed_enter {sections : Entries} (h : (Value.dict sections).WellKeyed)
    (binding : String × String) : (Value.dict (Environment.enter sections binding)).WellKeyed := by
  unfold Environment.enter
  split
  case h_1 => exact h
  case h_2 sectionName field _ =>
    have hentries := (wellKeyed_entriesOf h sectionName).put
      (.other (not_isDict_settingOf binding.2)) (.str field)
    exact h.put hentries (.str sectionName)

/-- What variables enter has distinct keys. -/
theorem wellKeyed_sectionsOf (vars : Environment.Variables) :
    (Value.dict (Environment.sectionsOf vars)).WellKeyed := by
  -- the sections that are there so far are well keyed, whichever they are
  suffices hall : ∀ sections, (Value.dict sections).WellKeyed →
      (Value.dict (vars.foldl Environment.enter sections)).WellKeyed from
    hall [] Value.wellKeyed_nil
  induction vars with
  | nil => exact fun sections h => h
  | cons binding rest ih => exact fun sections h => ih _ (wellKeyed_enter h binding)

/-- An environment leaves the other sources as they are. -/
theorem tree_loadEnvironment_of_ne {vars : Environment.Variables} (hs : s ≠ .environment) :
    (st.loadEnvironment vars).tree s = st.tree s := by
  unfold loadEnvironment
  split
  case h_1 => rfl
  case h_2 => exact if_neg hs

theorem WellKeyed.loadEnvironment (hst : st.WellKeyed) (vars : Environment.Variables) :
    (st.loadEnvironment vars).WellKeyed := by
  unfold Store.loadEnvironment
  split
  case h_1 => exact hst
  case h_2 =>
    exact hst.replace (Value.wellKeyed_nil.put (wellKeyed_sectionsOf vars) (.str rootKey)) _

/-- A configuration that is read has distinct keys. -/
theorem wellKeyed_ofFile {σ : Type} {w : World σ} {y z : σ} {yaml : Yaml.Reader}
    {file : Option String} {vars : Environment.Variables}
    (h : (ofFile yaml file vars).run w y = (.ok st, z)) : st.WellKeyed := by
  simp only [ofFile] at h
  split at h
  case h_1 =>
    obtain ⟨st₀, y₁, hload, h⟩ := Program.run_bind_eq_ok.1 h
    obtain rfl := Except.ok.inj (Prod.mk.inj h).1
    exact (wellKeyed_initial.loadFile hload).loadEnvironment vars
  case h_2 =>
    obtain rfl := Except.ok.inj (Prod.mk.inj h).1
    exact wellKeyed_initial.loadEnvironment vars

/-! ## Runs -/

/-- One operation on a store, with whichever files and reader there are. -/
inductive Step (st : Store) : Store → Prop
  | loadFile {σ : Type} {w : World σ} {y z : σ} {yaml : Yaml.Reader} {file : String} {s : Source}
    {st' : Store} (h : (st.loadFile yaml file s).run w y = (.ok st', z)) : Step st st'
  | load {v : Value} {s : Source} {st' : Store} (hv : v.WellKeyed)
    (h : st.load v s = .ok st') : Step st st'
  | set {key : String} {v : Value} {s : Source} {st' : Store} (hv : v.WellKeyed)
    (h : st.set key v s = .ok st') : Step st st'
  | clear (s : Source) : Step st (st.clear s)
  | clearAll : Step st st.clearAll

/-- The stores that there can be. -/
inductive Reachable : Store → Prop
  | start {σ : Type} {w : World σ} {y z : σ} {yaml : Yaml.Reader} {file : Option String}
    {vars : Environment.Variables} {st : Store}
    (h : (ofFile yaml file vars).run w y = (.ok st, z)) : Reachable st
  | step {st st' : Store} (hst : Reachable st) (h : Step st st') : Reachable st'

theorem Step.wellKeyed (hst : st.WellKeyed) (h : Step st st') : st'.WellKeyed := by
  cases h with
  | loadFile h => exact hst.loadFile h
  | load hv h => exact hst.loadFrom hv h
  | set hv h => exact hst.set hv h
  | clear s => exact hst.clear s
  | clearAll => exact hst.clearAll

/-- The keys are distinct in every state that is reached. -/
theorem Reachable.wellKeyed (h : Reachable st) : st.WellKeyed := by
  induction h with
  | start h => exact wellKeyed_ofFile h
  | step _ hstep ih => exact hstep.wellKeyed ih

/-- A setting of the merged tree, if it is something and no dictionary, is what a key is looked up
with, and it comes from the highest of the sources that have anything for the key. -/
theorem get?_eq_of_merged (hst : Reachable st)
    (h : valueAt? st.merged (keyParts key) = some v) (hnull : v ≠ .null) (hv : ¬ v.IsDict) :
    st.get? key = some v ∧
      ∃ s, st.getWithSource? key = some (s, v) ∧ st.Defines (keyParts key) s ∧
        ∀ s', st.Defines (keyParts key) s' → s'.rank ≤ s.rank := by
  obtain ⟨s, hfound, hs, hhighest⟩ := getWithSource?_eq_of_merged hst.wellKeyed h hnull hv
  refine ⟨?_, s, hfound, hs, hhighest⟩
  rw [get?, hfound, Option.map_some]

/-- A store with a number where another source has a dictionary, and nothing where another source
has a setting. -/
def shadowed : Store :=
  (((initial.replace .system [(.str "log", .int 7)]).replace .user
    [(.str "log", .dict [(.str "depth", .null)])]).replace .environment
    [(.str "log", .dict [(.str "depth", .int 4)])]).replace .runtime
    [(.str "log", .dict [(.str "width", .int 9)])]

/-- A source that has no tree gets one with a value alone. -/
theorem Reachable.replace {parts : List String} (hst : Reachable st) (hkey : keyParts key = parts)
    (htree : st.tree s = none) (h : assign v parts (.dict []) = .ok (.dict entries))
    (hv : v.WellKeyed) : Reachable (st.replace s entries) := by
  have hset : st.set key v s = .ok (st.replace s entries) := by
    rw [Store.set, hkey, htree, Option.getD_none, h]
    rfl
  exact hst.step (.set hv hset)

theorem keyParts_logDepth : keyParts "log.depth" = ["log", "depth"] := by decide +kernel

/-- Two loads and a setting lead to the state. -/
theorem reachable_shadowed : Reachable shadowed := by
  have hlog : keyParts "log" = ["log"] := by decide +kernel
  have hwidth : keyParts "log.width" = ["log", "width"] := by decide +kernel
  have hrun : (ofFile .builtIn none []).run (Tree.fileSystem {}).world () = (.ok initial, ()) := rfl
  have hstart : Reachable initial := .start hrun
  have hsystem := hstart.replace (s := .system) hlog rfl rfl (.other (v := .int 7) nofun)
  have huser := hsystem.replace (s := .user) keyParts_logDepth rfl rfl
    (.other (v := .null) nofun)
  have henvironment := huser.replace (s := .environment) keyParts_logDepth rfl rfl
    (.other (v := .int 4) nofun)
  exact henvironment.replace (s := .runtime) hwidth rfl rfl (.other (v := .int 9) nofun)

/-- The number that is lower and the nothing that is lower still do not get in the way, nor does the
dictionary above them. -/
theorem get?_shadowed :
    Reachable shadowed ∧
      valueAt? shadowed.merged (keyParts "log.depth") = some (.int 4) ∧
      shadowed.get? "log.depth" = some (.int 4) ∧
      ∃ s, shadowed.getWithSource? "log.depth" = some (s, .int 4) ∧
        shadowed.Defines (keyParts "log.depth") s ∧
        ∀ s', shadowed.Defines (keyParts "log.depth") s' → s'.rank ≤ s.rank := by
  have hmerged : valueAt? shadowed.merged (keyParts "log.depth") = some (.int 4) := by
    rw [keyParts_logDepth]
    rfl
  exact ⟨reachable_shadowed, hmerged, get?_eq_of_merged reachable_shadowed hmerged nofun nofun⟩

end Store

end ModulePath.Config
