import ModulePath.Descriptor.Read

/-!
# The grammar of descriptors

Which data are a module descriptor, said without reading one: what a rule path, a flag, a rule in
its short and its long form, a dependency and a descriptor look like. An attribute may be left out
unless it is said to be there; one that has no other meaning is not allowed.
-/

set_option autoImplicit false

namespace ModulePath.Descriptor

/-! ## Attributes -/

/-- All keys are among the names. -/
def KeysAmong (names : List String) (entries : Entries) : Prop :=
  ∀ e ∈ entries, ∃ name ∈ names, e.1 = .str name

/-- An attribute is as it should be, or is not there. -/
def Optionally (P : Value → Prop) (name : String) (entries : Entries) : Prop :=
  ∀ v, Value.field? name entries = some v → P v

/-- An attribute is there, with a text that is not empty. -/
def HasName (name : String) (entries : Entries) : Prop :=
  ∃ s, Value.field? name entries = some (.str s) ∧ s ≠ ""

/-! ## Scalars -/

/-- A text that is neither empty nor too long and has no control characters. -/
def IsRulePath (v : Value) : Prop :=
  ∃ s : String, v = .str s ∧ s ≠ "" ∧ s.length ≤ maxPathLength ∧ ∀ c ∈ s.toList, 32 ≤ c.toNat

/-- A list, a tuple or a set of rule paths. -/
def IsPathSet (v : Value) : Prop :=
  ∃ items, (v = .list items ∨ v = .tuple items ∨ v = .set items) ∧ ∀ item ∈ items, IsRulePath item

/-- A truth value, or a text that spells one in any case. -/
def IsFlag (v : Value) : Prop :=
  (∃ b, v = .bool b) ∨
    ∃ s, v = .str s ∧ (Text.lowerString s = "true" ∨ Text.lowerString s = "false")

/-- The text of a mode. -/
def IsServices (v : Value) : Prop := ∃ mode : Services, v = .str mode.text

/-! ## Rules -/

/-- The argument of a rule: in its short form the argument itself, in its long form a dictionary
with the argument as its only attribute. -/
def IsArgument (P : Value → Prop) (name : String) (v : Value) : Prop :=
  P v ∨ ∃ entries, v = .dict entries ∧ KeysAmong [name] entries ∧
    ∃ w, Value.field? name entries = some w ∧ P w

/-- What a rule of a kind is made from: a path, or a set of paths. -/
def IsRuleValue (kind : Rule.Kind) (v : Value) : Prop :=
  if kind.isSet then IsArgument IsPathSet "paths" v else IsArgument IsRulePath "path" v

/-- A dictionary of one entry, from the kind of the rule to what it is made from. -/
def IsRule (v : Value) : Prop :=
  ∃ (kind : Rule.Kind) (w : Value), v = .dict [(.str kind.text, w)] ∧ IsRuleValue kind w

/-- Nothing, or a list or a tuple of rules. -/
def IsRules (v : Value) : Prop :=
  v = .null ∨ ∃ items, (v = .list items ∨ v = .tuple items) ∧ ∀ item ∈ items, IsRule item

/-! ## Dependencies -/

/-- The attributes of a dependency on the platform. -/
structure IsPlatform (entries : Entries) : Prop where
  keys : KeysAmong ["export", "paths", "exports"] entries
  paths : Optionally (fun v => v = .null ∨ IsPathSet v) "paths" entries
  reexport : Optionally IsFlag "export" entries
  exportRules : Optionally IsRules "exports" entries

/-- The attributes of a dependency on a module. -/
structure IsModule (entries : Entries) : Prop where
  keys : KeysAmong ["module", "export", "optional", "services", "imports", "exports"] entries
  target : HasName "module" entries
  services : Optionally IsServices "services" entries
  reexport : Optionally IsFlag "export" entries
  optional : Optionally IsFlag "optional" entries
  importRules : Optionally IsRules "imports" entries
  exportRules : Optionally IsRules "exports" entries

/-- A dependency: on the platform, marked by its only key, or on a module. -/
def IsDependency (v : Value) : Prop :=
  ∃ entries, v = .dict entries ∧
    ((∃ w, entries = [(.str "system", w)] ∧
      (w = .null ∨ ∃ attributes, w = .dict attributes ∧ IsPlatform attributes)) ∨
    IsModule entries)

/-- A list of dependencies, or anything that counts as false. -/
def IsDependencies (v : Value) : Prop :=
  v.truthy = false ∨ ∃ items, v = .list items ∧ ∀ item ∈ items, IsDependency item

/-! ## Descriptors -/

/-- The attributes of a descriptor. -/
structure IsDescriptor (entries : Entries) : Prop where
  keys : KeysAmong ["name", "exports", "dependencies"] entries
  name : HasName "name" entries
  dependencies : Optionally IsDependencies "dependencies" entries
  exportRules : Optionally IsRules "exports" entries

/-- A piece of data is in the grammar. -/
def InGrammar (v : Value) : Prop := ∃ entries, v = .dict entries ∧ IsDescriptor entries

end ModulePath.Descriptor
