import ModulePath.Proofs.Descriptor.Grammar
import ModulePath.Proofs.Descriptor.Paths
import ModulePath.Proofs.Descriptor.Reading

/-!
# Reading what was written

Which data write a descriptor out is said here without reading them (`Writes`). There are many: an
attribute may be left out if it has its default, a flag may be spelled as a text in any case, and
the members of a set may be listed in any order and more than once. Whichever is chosen, a
descriptor whose names and paths are usable is read back from it (`ofValue?_of_writes`). Each reader
gives back what was written at its place, and a list is read back member by member, in order.
-/

set_option autoImplicit false

namespace ModulePath

/-! ## Descriptors that can be written -/

/-- All paths of a rule are usable. -/
def Rule.WellFormed (r : Rule) : Prop :=
  match r.selector with
  | .path p => rulePathFault? p = none
  | .set members => ∀ p ∈ members, rulePathFault? p = none

/-- The name of the other module is not empty, and the paths of all rules are usable. -/
structure ModuleDependency.WellFormed (d : ModuleDependency) : Prop where
  target : d.target ≠ ""
  importRules : ∀ r ∈ d.importRules, r.WellFormed
  exportRules : ∀ r ∈ d.exportRules, r.WellFormed

/-- The platform paths and those of all rules are usable. -/
structure PlatformDependency.WellFormed (d : PlatformDependency) : Prop where
  paths : ∀ p ∈ d.paths, rulePathFault? p = none
  exportRules : ∀ r ∈ d.exportRules, r.WellFormed

/-- What a dependency says is usable. -/
def Dependency.WellFormed : Dependency → Prop
  | .onModule d => d.WellFormed
  | .onPlatform d => d.WellFormed

/-- No name is empty, and all paths are usable. -/
structure Descriptor.WellFormed (d : Descriptor) : Prop where
  name : d.name ≠ ""
  exportRules : ∀ r ∈ d.exportRules, r.WellFormed
  dependencies : ∀ dep ∈ d.dependencies, dep.WellFormed

instance (r : Rule) : Decidable r.WellFormed :=
  match r with
  | ⟨_, .path p⟩ => inferInstanceAs (Decidable (rulePathFault? p = none))
  | ⟨_, .set members⟩ =>
    inferInstanceAs (Decidable (∀ p ∈ members.elements, rulePathFault? p = none))

instance (d : ModuleDependency) : Decidable d.WellFormed :=
  decidable_of_iff (d.target ≠ "" ∧ (∀ r ∈ d.importRules, r.WellFormed) ∧
      ∀ r ∈ d.exportRules, r.WellFormed)
    ⟨fun ⟨target, imports, exports⟩ => ⟨target, imports, exports⟩,
      fun ⟨target, imports, exports⟩ => ⟨target, imports, exports⟩⟩

instance (d : PlatformDependency) : Decidable d.WellFormed :=
  decidable_of_iff ((∀ p ∈ d.paths.elements, rulePathFault? p = none) ∧
      ∀ r ∈ d.exportRules, r.WellFormed)
    ⟨fun ⟨paths, exports⟩ => ⟨paths, exports⟩, fun ⟨paths, exports⟩ => ⟨paths, exports⟩⟩

instance (d : Dependency) : Decidable d.WellFormed :=
  match d with
  | .onModule d => inferInstanceAs (Decidable d.WellFormed)
  | .onPlatform d => inferInstanceAs (Decidable d.WellFormed)

instance (d : Descriptor) : Decidable d.WellFormed :=
  decidable_of_iff (d.name ≠ "" ∧ (∀ r ∈ d.exportRules, r.WellFormed) ∧
      ∀ dep ∈ d.dependencies, dep.WellFormed)
    ⟨fun ⟨name, exports, dependencies⟩ => ⟨name, exports, dependencies⟩,
      fun ⟨name, exports, dependencies⟩ => ⟨name, exports, dependencies⟩⟩

namespace Descriptor

variable {α : Type} {v : Value} {entries : Entries} {name place key : String}

/-! ## Writing -/

/-- An attribute is written, or it is left out and has its default. -/
inductive Attribute (W : α → Value → Prop) (default : α) (name : String) (entries : Entries) :
    α → Prop
  | written {a : α} {v : Value} (h : Value.field? name entries = some v) (hv : W a v) :
    Attribute W default name entries a
  | omitted (h : Value.field? name entries = none) : Attribute W default name entries default

/-- A text spells a word with every letter in one of its two cases. -/
def Spells (word s : String) : Prop :=
  List.Forall₂ (fun c d => d = c ∨ d = c.toUpper) word.toList s.toList

/-- A flag is a truth value or is spelled. -/
inductive WritesFlag : Bool → Value → Prop
  | bool (b : Bool) : WritesFlag b (.bool b)
  | text {b : Bool} {s : String} (h : Spells (if b then "true" else "false") s) :
    WritesFlag b (.str s)

/-- A mode is written as its text. -/
def WritesServices (mode : Services) (v : Value) : Prop := v = .str mode.text

/-- A set is written as a list of its members, in any order and with repetitions. -/
def WritesPaths (paths : TextSet) (v : Value) : Prop :=
  ∃ ps : List String, v = .list (ps.map .str) ∧ ∀ p, p ∈ ps ↔ p ∈ paths

/-- What a rule applies to is written as a path or as a set. -/
def WritesSelector : Rule.Selector → Value → Prop
  | .path p, v => v = .str p
  | .set members, v => WritesPaths members v

/-- A rule is written under the text of its kind. -/
def WritesRule (r : Rule) (v : Value) : Prop :=
  ∃ w, v = .dict [(.str r.kind.text, w)] ∧ WritesSelector r.selector w

/-- A list is written member by member. -/
def WritesList (W : α → Value → Prop) (as : List α) (v : Value) : Prop :=
  ∃ items, v = .list items ∧ List.Forall₂ W as items

/-- The attributes of a dependency on a module. -/
structure WritesModule (d : ModuleDependency) (entries : Entries) : Prop where
  keys : KeysAmong ["module", "export", "optional", "services", "imports", "exports"] entries
  target : Value.field? "module" entries = some (.str d.target)
  services : Attribute WritesServices .hidden "services" entries d.services
  reexport : Attribute WritesFlag false "export" entries d.reexport
  optional : Attribute WritesFlag false "optional" entries d.optional
  importRules : Attribute (WritesList WritesRule) [] "imports" entries d.importRules
  exportRules : Attribute (WritesList WritesRule) [] "exports" entries d.exportRules

/-- The attributes of a dependency on the platform. -/
structure WritesPlatform (d : PlatformDependency) (entries : Entries) : Prop where
  keys : KeysAmong ["export", "paths", "exports"] entries
  paths : Attribute WritesPaths .empty "paths" entries d.paths
  reexport : Attribute WritesFlag false "export" entries d.reexport
  exportRules : Attribute (WritesList WritesRule) [] "exports" entries d.exportRules

/-- A dependency on the platform stands under its mark. -/
inductive WritesDependency : Dependency → Value → Prop
  | onModule {d : ModuleDependency} {entries : Entries} (h : WritesModule d entries) :
    WritesDependency (.onModule d) (.dict entries)
  | onPlatform {d : PlatformDependency} {entries : Entries} (h : WritesPlatform d entries) :
    WritesDependency (.onPlatform d) (.dict [(.str "system", .dict entries)])

/-- The attributes of a descriptor. -/
structure WritesAttributes (d : Descriptor) (entries : Entries) : Prop where
  keys : KeysAmong ["name", "exports", "dependencies"] entries
  name : Value.field? "name" entries = some (.str d.name)
  exportRules : Attribute (WritesList WritesRule) [] "exports" entries d.exportRules
  dependencies :
    Attribute (WritesList WritesDependency) [] "dependencies" entries d.dependencies

/-- A piece of data writes a descriptor out. -/
def Writes (d : Descriptor) (v : Value) : Prop :=
  ∃ entries, v = .dict entries ∧ WritesAttributes d entries

/-! ## Reading at one place -/

/-- What is written for an attribute is read, or else the default is. -/
theorem Attribute.read {W : α → Value → Prop} {default a : α} {absent : Value}
    {parse : Value → Outcome Error α} (h : Attribute W default name entries a)
    (habsent : parse absent = .ok default) (hparse : ∀ v, W a v → parse v = .ok a) :
    parse ((Value.field? name entries).getD absent) = .ok a := by
  cases h with
  | written h hv =>
    rw [h, Option.getD_some]
    exact hparse _ hv
  | omitted h =>
    rw [h, Option.getD_none]
    exact habsent

/-- A list is read back if each of its members is. -/
theorem mapM_of_writes {W : α → Value → Prop} {P : α → Prop} {parse : Value → Outcome Error α}
    {as : List α} {items : List Value} (h : List.Forall₂ W as items) (hP : ∀ a ∈ as, P a)
    (hparse : ∀ a v, P a → W a v → parse v = .ok a) : items.mapM parse = .ok as := by
  rw [Outcome.mapM_eq_ok]
  induction h with
  | nil => exact .nil
  | cons hv _ ih =>
    obtain ⟨ha, has⟩ := List.forall_mem_cons.1 hP
    exact .cons (hparse _ _ ha hv) (ih has)

/-- Allowed attributes pass. -/
theorem checkAttributes_of_keysAmong {allowed : List String} (h : KeysAmong allowed entries) :
    checkAttributes entries allowed place = .ok () := by
  rw [checkAttributes, keysAmong_iff.1 h]
  rfl

theorem field?_eq_none_of_keysAmong {names : List String} (h : KeysAmong names entries)
    (hname : name ∉ names) : Value.field? name entries = none := by
  apply Option.eq_none_iff_forall_ne_some.2
  intro v hv
  obtain ⟨other, hother, hkey⟩ := h _ (Value.mem_of_field?_eq_some hv)
  obtain rfl := Value.str.inj hkey
  exact hname hother

theorem nonEmptyText?_of_ne {s : String} (h : s ≠ "") : nonEmptyText? (some (.str s)) = some s := by
  simp [nonEmptyText?, h]

/-! ## Scalars and rules -/

/-- A character is the lower case of both its cases. -/
def isSmallLetter (c : Char) : Bool :=
  [c, c.toUpper].all fun d => d != 'Σ' && Text.lowerChar d == [c]

/-- A word of small letters is what any writing of it is in small letters. -/
theorem lowerAfter_of_cases {word cs before : List Char}
    (h : List.Forall₂ (fun c d => d = c ∨ d = c.toUpper) word cs)
    (hword : word.all isSmallLetter = true) : Text.lowerAfter before cs = word := by
  induction h generalizing before with
  | nil => rfl
  | @cons c d word cs hd _ ih =>
    obtain ⟨hletter, hrest⟩ := Bool.and_eq_true_iff.1 hword
    have hlower : d ≠ 'Σ' ∧ Text.lowerChar d = [c] := by
      have hd := List.all_eq_true.1 hletter d (by simpa using hd)
      simpa using hd
    rw [Text.lowerAfter, if_neg hlower.1, hlower.2, ih hrest, List.singleton_append]

/-- A text that spells a word is the word in small letters. -/
theorem lowerString_of_spells {word s : String} (h : Spells word s)
    (hword : word.toList.all isSmallLetter = true) : Text.lowerString s = word := by
  rw [Text.lowerString, Text.lower, lowerAfter_of_cases h hword, String.ofList_toList]

theorem flag?_of_writes {b : Bool} (h : WritesFlag b v) : flag? key v = .ok b := by
  cases h with
  | bool => rfl
  | @text s h =>
    have hlower : Text.lowerString s = if b then "true" else "false" :=
      lowerString_of_spells h (by cases b <;> decide)
    cases b with
    | true => simp [flag?, hlower]
    | false => simp [flag?, hlower]

theorem flagField?_of_writes {b : Bool} (h : Attribute WritesFlag false key entries b) :
    flagField? entries key = .ok b :=
  h.read rfl fun _ hv => flag?_of_writes hv

theorem pathSet?_of_writes {paths : TextSet} (h : WritesPaths paths v)
    (hpaths : ∀ p ∈ paths, rulePathFault? p = none) : pathSet? key v = .ok paths := by
  obtain ⟨ps, rfl, hmem⟩ := h
  refine pathSet?_eq_ok_iff.2 ⟨ps, .inl rfl, ?_, ?_⟩
  · intro p hp
    exact hpaths p ((hmem p).1 hp)
  · apply TextSet.ext
    intro p
    rw [TextSet.mem_ofList, hmem]

theorem ruleOf?_of_writes {r : Rule} (h : WritesSelector r.selector v) (hr : r.WellFormed) :
    ruleOf? r.kind v = .ok r := by
  obtain ⟨included, selector⟩ := r
  cases selector with
  | path p =>
    obtain rfl : v = .str p := h
    have hread : path? (.str p) = .ok p := path?_of_valid hr
    cases included with
    | true | false =>
      exact Outcome.seq_eq_ok.2 ⟨.str p, rfl, Outcome.seq_eq_ok.2 ⟨p, hread, rfl⟩⟩
  | set members =>
    have hread (key : String) : pathSet? key v = .ok members := pathSet?_of_writes h hr
    obtain ⟨ps, rfl, -⟩ := h
    cases included with
    | true | false =>
      exact Outcome.seq_eq_ok.2 ⟨_, rfl, Outcome.seq_eq_ok.2 ⟨members, hread _, rfl⟩⟩

theorem rule?_of_writes {r : Rule} (hr : r.WellFormed) (h : WritesRule r v) : rule? v = .ok r := by
  obtain ⟨w, rfl, hw⟩ := h
  have hkind : Rule.Kind.ofText? r.kind.text = some r.kind := ofText?_eq_some_iff.2 rfl
  simp only [rule?, hkind]
  exact ruleOf?_of_writes hw hr

theorem rulesField?_of_writes {rules : List Rule}
    (h : Attribute (WritesList WritesRule) [] key entries rules)
    (hrules : ∀ r ∈ rules, r.WellFormed) : rulesField? entries key = .ok rules := by
  apply h.read rfl
  rintro _ ⟨items, rfl, hitems⟩
  exact mapM_of_writes hitems hrules fun _ _ hr hw => rule?_of_writes hr hw

/-! ## Dependencies -/

/-- A treatment of services is read back, also where it is left out. -/
theorem services_of_writes {mode : Services}
    (h : Attribute WritesServices .hidden "services" entries mode) :
    Services.ofValue? ((Value.field? "services" entries).getD (.str Services.hidden.text)) =
      some mode := by
  have hread (mode : Services) : Services.ofValue? (.str mode.text) = some mode := by
    cases mode with
    | hidden | visible | reexported => rfl
  cases h with
  | written h hv =>
    rw [h, Option.getD_some, hv]
    exact hread mode
  | omitted h =>
    rw [h, Option.getD_none]
    exact hread .hidden

theorem moduleDependency?_of_writes {d : ModuleDependency} (hd : d.WellFormed)
    (h : WritesModule d entries) : moduleDependency? (.dict entries) = .ok d := by
  rw [moduleDependency?, h.target, nonEmptyText?_of_ne hd.target]
  simp only [services_of_writes h.services]
  -- the attributes in the order in which the reader looks at them
  refine Outcome.seq_eq_ok.2 ⟨(), checkAttributes_of_keysAmong h.keys, ?_⟩
  refine Outcome.seq_eq_ok.2 ⟨d.reexport, flagField?_of_writes h.reexport, ?_⟩
  refine Outcome.seq_eq_ok.2 ⟨d.optional, flagField?_of_writes h.optional, ?_⟩
  refine Outcome.seq_eq_ok.2
    ⟨d.importRules, rulesField?_of_writes h.importRules hd.importRules, ?_⟩
  refine Outcome.seq_eq_ok.2
    ⟨d.exportRules, rulesField?_of_writes h.exportRules hd.exportRules, ?_⟩
  rfl

theorem platformDependency?_of_writes {d : PlatformDependency} (hd : d.WellFormed)
    (h : WritesPlatform d entries) : platformDependency? (.dict entries) = .ok d := by
  obtain ⟨paths, reexport, exportRules⟩ := d
  have hrest : (do
      let reexport ← flagField? entries "export"
      let exportRules ← rulesField? entries "exports"
      return { paths, reexport, exportRules } : Outcome Error PlatformDependency) =
      .ok { paths, reexport, exportRules } := by
    refine Outcome.seq_eq_ok.2 ⟨reexport, flagField?_of_writes h.reexport, ?_⟩
    refine Outcome.seq_eq_ok.2
      ⟨exportRules, rulesField?_of_writes h.exportRules hd.exportRules, ?_⟩
    rfl
  have hpaths : Attribute WritesPaths .empty "paths" entries paths := h.paths
  refine Outcome.seq_eq_ok.2 ⟨(), checkAttributes_of_keysAmong h.keys, ?_⟩
  -- the paths are the only attribute whose default is no value of its own
  cases hpaths with
  | @written _ v hfield hv =>
    have hread : pathSet? "paths" v = .ok paths := pathSet?_of_writes hv hd.paths
    obtain ⟨ps, rfl, -⟩ := hv
    simp only [hfield, Option.getD_some]
    exact Outcome.seq_eq_ok.2 ⟨paths, hread, hrest⟩
  | omitted hfield =>
    simp only [hfield, Option.getD_none]
    exact hrest

/-- A dependency is read back in whichever way it is written. -/
theorem dependency?_of_writes {d : Dependency} (hd : d.WellFormed) (h : WritesDependency d v) :
    dependency? v = .ok d := by
  cases h with
  | onModule h =>
    have hsystem : Value.field? "system" _ = none :=
      field?_eq_none_of_keysAmong h.keys (by decide)
    simp only [dependency?, hsystem, moduleDependency?_of_writes hd h]
    rfl
  | onPlatform h =>
    simp only [dependency?, Value.field?_cons_self, List.length_singleton, if_true,
      platformDependency?_of_writes hd h]
    rfl

theorem dependencies?_of_writes {ds : List Dependency} (hds : ∀ d ∈ ds, d.WellFormed)
    (h : WritesList WritesDependency ds v) : dependencies? v = .ok ds := by
  obtain ⟨items, rfl, hitems⟩ := h
  cases hitems with
  | nil => rfl
  | cons hd hrest =>
    -- a list with members counts as true
    exact mapM_of_writes (.cons hd hrest) hds fun _ _ hd hw => dependency?_of_writes hd hw

/-! ## Descriptors -/

/-- A descriptor is read back from its attributes in any order. -/
theorem ofValue?_of_attributes {d : Descriptor} (hd : d.WellFormed)
    (h : WritesAttributes d entries) : ofValue? (.dict entries) = .ok d := by
  rw [ofValue?, h.name, nonEmptyText?_of_ne hd.name]
  refine Outcome.seq_eq_ok.2 ⟨(), checkAttributes_of_keysAmong h.keys, ?_⟩
  refine Outcome.seq_eq_ok.2 ⟨d.dependencies, h.dependencies.read rfl fun _ hv =>
    dependencies?_of_writes hd.dependencies hv, ?_⟩
  refine Outcome.seq_eq_ok.2
    ⟨d.exportRules, rulesField?_of_writes h.exportRules hd.exportRules, ?_⟩
  rfl

/-! ### One way to write -/

/-- What a set is written as when its members are listed in order. -/
def pathsValue (paths : TextSet) : Value := .list (paths.elements.map .str)

/-- What a rule is written as. -/
def ruleValue (r : Rule) : Value :=
  .dict [(.str r.kind.text,
    match r.selector with
    | .path p => .str p
    | .set members => pathsValue members)]

/-- What rules are written as. -/
def rulesValue (rules : List Rule) : Value := .list (rules.map ruleValue)

/-- What a dependency is written as when no attribute is left out. -/
def dependencyValue : Dependency → Value
  | .onModule d =>
    .dict [(.str "module", .str d.target), (.str "export", .bool d.reexport),
      (.str "optional", .bool d.optional), (.str "services", .str d.services.text),
      (.str "imports", rulesValue d.importRules), (.str "exports", rulesValue d.exportRules)]
  | .onPlatform d =>
    .dict [(.str "system", .dict [(.str "paths", pathsValue d.paths),
      (.str "export", .bool d.reexport), (.str "exports", rulesValue d.exportRules)])]

/-- What a descriptor is written as when no attribute is left out. -/
def toValue (d : Descriptor) : Value :=
  .dict [(.str "name", .str d.name), (.str "exports", rulesValue d.exportRules),
    (.str "dependencies", .list (d.dependencies.map dependencyValue))]

theorem writesPaths_pathsValue (paths : TextSet) : WritesPaths paths (pathsValue paths) :=
  ⟨paths.elements, rfl, fun _ => TextSet.mem_def.symm⟩

theorem writesRule_ruleValue (r : Rule) : WritesRule r (ruleValue r) := by
  obtain ⟨included, selector⟩ := r
  cases selector with
  | path p => exact ⟨.str p, rfl, rfl⟩
  | set members => exact ⟨pathsValue members, rfl, writesPaths_pathsValue members⟩

theorem writesList_map {W : α → Value → Prop} {write : α → Value} (h : ∀ a, W a (write a))
    (as : List α) : WritesList W as (.list (as.map write)) := by
  refine ⟨as.map write, rfl, ?_⟩
  rw [List.forall₂_map_right_iff, List.forall₂_same]
  exact fun a _ => h a

theorem writesList_rulesValue (rules : List Rule) :
    WritesList WritesRule rules (rulesValue rules) :=
  writesList_map writesRule_ruleValue rules

theorem writesDependency_dependencyValue (d : Dependency) :
    WritesDependency d (dependencyValue d) := by
  cases d with
  | onModule d =>
    refine .onModule
      ⟨by simp [KeysAmong], rfl, .written rfl rfl, .written rfl (.bool _), ?_, ?_, ?_⟩
    · exact .written rfl (.bool _)
    · exact .written rfl (writesList_rulesValue d.importRules)
    · exact .written rfl (writesList_rulesValue d.exportRules)
  | onPlatform d =>
    refine .onPlatform ⟨by simp [KeysAmong], ?_, .written rfl (.bool _), ?_⟩
    · exact .written rfl (writesPaths_pathsValue d.paths)
    · exact .written rfl (writesList_rulesValue d.exportRules)

/-- One way to write a descriptor. -/
theorem writes_toValue (d : Descriptor) : Writes d d.toValue := by
  refine ⟨_, rfl, by simp [KeysAmong], rfl, ?_, ?_⟩
  · exact .written rfl (writesList_rulesValue d.exportRules)
  · exact .written rfl (writesList_map writesDependency_dependencyValue d.dependencies)

/-- A descriptor can be written out, and however that is done, it is read back. -/
theorem ofValue?_of_writes {d : Descriptor} (hd : d.WellFormed) :
    Writes d d.toValue ∧ ∀ v, Writes d v → ofValue? v = .ok d := by
  refine ⟨writes_toValue d, ?_⟩
  rintro _ ⟨entries, rfl, h⟩
  exact ofValue?_of_attributes hd h

/-- A dependency with two rules, one of which applies to a set. -/
def sampleDependency : ModuleDependency where
  target := "com.acme.lib"
  reexport := true
  importRules := [⟨true, .path "com/acme/lib/api/"⟩, ⟨false, .set (.ofList ["a/b", "c"])⟩]

/-- Its attributes in another order, most of them left out. The flag is spelled, and the set is
listed backwards with a member listed twice. -/
def sampleAttributes : Entries :=
  [(.str "export", .str "True"),
    (.str "imports", .list [
      .dict [(.str "include", .str "com/acme/lib/api/")],
      .dict [(.str "exclude-set", .list [.str "c", .str "a/b", .str "c"])]]),
    (.str "module", .str "com.acme.lib")]

/-- A descriptor with a dependency of each kind. -/
def sampleDescriptor : Descriptor where
  name := "com.acme.app"
  exportRules := [⟨false, .path "com/acme/app/internal/"⟩]
  dependencies :=
    [.onModule sampleDependency, .onPlatform { paths := .ofList ["java/util"] }]

/-- That descriptor written out. -/
def sampleValue : Value :=
  .dict [
    (.str "dependencies", .list [
      .dict sampleAttributes,
      .dict [(.str "system", .dict [(.str "paths", .list [.str "java/util"])])]]),
    (.str "exports", .list [.dict [(.str "exclude", .str "com/acme/app/internal/")]]),
    (.str "name", .str "com.acme.app")]

theorem writesModule_sampleAttributes : WritesModule sampleDependency sampleAttributes where
  keys := by simp [KeysAmong, sampleAttributes]
  target := rfl
  services := .omitted rfl
  reexport := by
    have htrue : Spells "true" "True" := by simp [Spells]
    exact .written rfl (.text htrue)
  optional := .omitted rfl
  importRules := by
    have hset : WritesPaths (.ofList ["a/b", "c"]) (.list [.str "c", .str "a/b", .str "c"]) := by
      refine ⟨["c", "a/b", "c"], rfl, fun p => ?_⟩
      rw [TextSet.mem_ofList]
      simp only [List.mem_cons, List.not_mem_nil, or_false]
      tauto
    exact .written rfl ⟨_, rfl, .cons ⟨_, rfl, rfl⟩ (.cons ⟨_, rfl, hset⟩ .nil)⟩
  exportRules := .omitted rfl

theorem writes_sampleValue : Writes sampleDescriptor sampleValue := by
  have hplatform : WritesPlatform { paths := .ofList ["java/util"] }
      [(.str "paths", .list [.str "java/util"])] :=
    ⟨by simp [KeysAmong], .written rfl ⟨["java/util"], rfl, fun _ => TextSet.mem_ofList.symm⟩,
      .omitted rfl, .omitted rfl⟩
  refine ⟨_, rfl, by simp [KeysAmong], rfl, ?_, ?_⟩
  · exact .written rfl ⟨_, rfl, .cons ⟨_, rfl, rfl⟩ .nil⟩
  · exact .written rfl
      ⟨_, rfl, .cons (.onModule writesModule_sampleAttributes) (.cons (.onPlatform hplatform) .nil)⟩

theorem ofValue?_sampleValue :
    sampleDescriptor.WellFormed ∧ Writes sampleDescriptor sampleValue ∧
      ofValue? sampleValue = .ok sampleDescriptor := by
  have hd : sampleDescriptor.WellFormed := by decide +kernel
  obtain ⟨-, hread⟩ := ofValue?_of_writes hd
  exact ⟨hd, writes_sampleValue, hread sampleValue writes_sampleValue⟩

end Descriptor

end ModulePath
