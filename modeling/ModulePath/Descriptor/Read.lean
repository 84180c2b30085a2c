import ModulePath.Descriptor.Basic
import ModulePath.Fault
import ModulePath.Path.Valid
import ModulePath.Text.Case
import ModulePath.Value.Text

/-!
# Reading descriptors

A descriptor is read from loose data. Reading checks everything: a dictionary may only have the
attributes that it is allowed, a rule is a dictionary of one entry, every rule path is usable. The
first fault ends it, in the order in which the attributes are looked at.
-/

set_option autoImplicit false

namespace ModulePath

/-- Why no descriptor is read. -/
inductive Descriptor.Error where
  /-- A dictionary has attributes that it may not have. -/
  | unknownAttributes (place : String) (names : List String)
  | notBoolean (key : String) (v : Value)
  | rulePath (v : Value) (fault : PathFault)
  | notPathList (key : String) (v : Value)
  | ruleShape (v : Value)
  | ruleKind (key : Value)
  /-- The long form of a rule lacks its attribute. -/
  | missingAttribute (kind : Rule.Kind) (name : String)
  | missingPath (kind : Rule.Kind)
  | rulesShape (v : Value)
  | dependencyShape (v : Value)
  | missingModule
  | services (v : Value)
  | platformShape (v : Value)
  /-- A dependency on the platform has another attribute beside it. -/
  | platformSiblings
  | shape
  | missingName
  | dependenciesShape

/-- The text of an error. -/
def Descriptor.Error.message : Descriptor.Error → String
  | unknownAttributes place names =>
    "Unknown " ++ place ++ " attribute(s): " ++ Value.commaSeparated names
  | notBoolean key v => "'" ++ key ++ "' must be a boolean, got " ++ v.quote
  | rulePath v fault => "Invalid rule path " ++ v.quote ++ ": " ++ fault.message
  | notPathList key v => "'" ++ key ++ "' must be a list of paths, got " ++ v.quote
  | ruleShape v => "Rule must be a mapping with exactly one key, got " ++ v.quote
  | ruleKind key => "Unknown rule type: " ++ key.quote
  | missingAttribute kind name => "'" ++ kind.text ++ "' requires a '" ++ name ++ "' attribute"
  | missingPath kind => "'" ++ kind.text ++ "' requires a path"
  | rulesShape v => "Rules must be a list, got " ++ v.quote
  | dependencyShape v => "Dependency must be a mapping, got " ++ v.quote
  | missingModule => "Dependency requires a 'module' name"
  | services v => if v.hasText then "Unknown services mode: " ++ v.quote else Fault.digitsText
  | platformShape v => "System dependency must be a mapping, got " ++ v.quote
  | platformSiblings => "A 'system' dependency takes no sibling attributes"
  | shape => "Module descriptor must be a mapping"
  | missingName => "Module descriptor requires a 'name'"
  | dependenciesShape => "'dependencies' must be a list"

/-- The data that the text of an error cannot do without. -/
def Descriptor.Error.data? : Descriptor.Error → Option Value
  | notBoolean _ v | rulePath v _ | notPathList _ v | ruleShape v | ruleKind v | rulesShape v
  | dependencyShape v | platformShape v => some v
  | _ => none

namespace Descriptor

/-- Refuse a descriptor. An error with data that cannot be written is none of the causes. -/
def refuse {α : Type} (e : Error) : Outcome Error α :=
  if e.data?.all Value.hasText then Outcome.refuse e else Outcome.fault .digits

/-- The entries of a dictionary. -/
abbrev Entries := List (Value × Value)

/-! ## Scalars -/

/-- Refuse a dictionary with a key that is not among the allowed attributes. -/
def checkAttributes (entries : Entries) (allowed : List String) (place : String) :
    Outcome Error Unit :=
  let unknown := (entries.map (·.1)).filter fun k =>
    !allowed.any fun a => Value.keyEq k (.str a)
  match Value.sort? unknown with
  | none => Outcome.fault .kind
  | some [] => .ok ()
  | some names =>
    if names.all Value.hasText then refuse (.unknownAttributes place (names.map Value.display))
    else Outcome.fault .digits

/-- A truth value, or a text that spells one in any case. -/
def flag? (key : String) : Value → Outcome Error Bool
  | .bool b => .ok b
  | .str s =>
    if Text.lowerString s == "true" then .ok true
    else if Text.lowerString s == "false" then .ok false
    else refuse (.notBoolean key (.str s))
  | v => refuse (.notBoolean key v)

/-- A flag of a dictionary, unset if it is not there. -/
def flagField? (entries : Entries) (key : String) : Outcome Error Bool :=
  flag? key ((Value.field? key entries).getD (.bool false))

/-- A rule path. -/
def path? (v : Value) : Outcome Error String :=
  match rulePath? v with
  | .ok p => .ok p
  | .error f => refuse (.rulePath v f)

/-- A collection of rule paths. -/
def pathSet? (key : String) (v : Value) : Outcome Error TextSet :=
  match v with
  | .list items | .tuple items | .set items => (items.mapM path?).map TextSet.ofList
  | v => refuse (.notPathList key v)

/-! ## Rules -/

/-- The argument of a rule: the attribute of that name if the rule is in its long form. -/
def ruleArgument? (kind : Rule.Kind) (name : String) : Value → Outcome Error Value
  | .dict entries => do
    checkAttributes entries [name] kind.text
    match Value.field? name entries with
    | some v => .ok v
    | none => refuse (.missingAttribute kind name)
  | v => .ok v

/-- The rule of a kind and an argument. -/
def ruleOf? (kind : Rule.Kind) (v : Value) : Outcome Error Rule := do
  if kind.isSet then
    let paths ← pathSet? kind.text (← ruleArgument? kind "paths" v)
    return ⟨kind.included, .set paths⟩
  else
    match ← ruleArgument? kind "path" v with
    | .null => refuse (.missingPath kind)
    | v => return ⟨kind.included, .path (← path? v)⟩

/-- A rule. -/
def rule? : Value → Outcome Error Rule
  | .dict [(key, v)] =>
    match key with
    | .str s =>
      match Rule.Kind.ofText? s with
      | some kind => ruleOf? kind v
      | none => refuse (.ruleKind key)
    | key => refuse (.ruleKind key)
  | v => refuse (.ruleShape v)

/-- A list of rules; nothing is no rules. -/
def rules? : Value → Outcome Error (List Rule)
  | .null => .ok []
  | .list items | .tuple items => items.mapM rule?
  | v => refuse (.rulesShape v)

/-- The rules of a dictionary under a key. -/
def rulesField? (entries : Entries) (key : String) : Outcome Error (List Rule) :=
  rules? ((Value.field? key entries).getD .null)

/-! ## Dependencies -/

/-- A text that is not empty. -/
def nonEmptyText? : Option Value → Option String
  | some (.str s) => if s.isEmpty then none else some s
  | _ => none

/-- A dependency on a module. -/
def moduleDependency? : Value → Outcome Error ModuleDependency
  | .dict entries => do
    checkAttributes entries ["module", "export", "optional", "services", "imports", "exports"]
      "dependency"
    match nonEmptyText? (Value.field? "module" entries) with
    | none => refuse .missingModule
    | some target =>
      let mode := (Value.field? "services" entries).getD (.str Services.hidden.text)
      match Services.ofValue? mode with
      | none => refuse (.services mode)
      | some services =>
        let reexport ← flagField? entries "export"
        let optional ← flagField? entries "optional"
        let importRules ← rulesField? entries "imports"
        let exportRules ← rulesField? entries "exports"
        return { target, reexport, optional, services, importRules, exportRules }
  | v => refuse (.dependencyShape v)

/-- A dependency on the platform. -/
def platformDependency? : Value → Outcome Error PlatformDependency
  | .null => .ok {}
  | .dict entries => do
    checkAttributes entries ["export", "paths", "exports"] "system dependency"
    let paths ←
      match (Value.field? "paths" entries).getD .null with
      | .null => .ok TextSet.empty
      | v => pathSet? "paths" v
    let reexport ← flagField? entries "export"
    let exportRules ← rulesField? entries "exports"
    return { paths, reexport, exportRules }
  | v => refuse (.platformShape v)

/-- A dependency: one on the platform if it is marked so. -/
def dependency? (v : Value) : Outcome Error Dependency :=
  match v with
  | .dict entries =>
    match Value.field? "system" entries with
    | some platform =>
      if entries.length = 1 then (platformDependency? platform).map .onPlatform
      else refuse .platformSiblings
    | none => (moduleDependency? v).map .onModule
  | v => (moduleDependency? v).map .onModule

/-- The dependencies of a descriptor: what counts as false is none. -/
def dependencies? (v : Value) : Outcome Error (List Dependency) :=
  if v.truthy then
    match v with
    | .list items => items.mapM dependency?
    | _ => refuse .dependenciesShape
  else .ok []

/-- A descriptor. -/
def ofValue? : Value → Outcome Error Descriptor
  | .dict entries => do
    checkAttributes entries ["name", "exports", "dependencies"] "descriptor"
    match nonEmptyText? (Value.field? "name" entries) with
    | none => refuse .missingName
    | some name =>
      let dependencies ← dependencies? ((Value.field? "dependencies" entries).getD .null)
      let exportRules ← rulesField? entries "exports"
      return { name, exportRules, dependencies }
  | _ => refuse .shape

end Descriptor

end ModulePath
