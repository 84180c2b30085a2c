import ModulePath.Config.Store
import ModulePath.Number.Numeral

/-!
# Settings from the environment

A variable `MODFILTER_SECTION_KEY` gives the key of a section a value. The name is read in lower
case; the section ends at the first underscore. The text of a variable is a truth value, an integer
or a real if it is written like one, and itself otherwise.
-/

set_option autoImplicit false

namespace ModulePath.Config.Environment

/-- The variables of an environment. -/
abbrev Variables := List (String × String)

/-- What the names of variables with settings begin with. -/
def namePrefix : String := "MODFILTER_"

/-- The value of the text of a variable. -/
def settingOf (s : String) : Value :=
  let word := Text.lowerString s
  if word == "true" || word == "yes" then .bool true
  else if word == "false" || word == "no" then .bool false
  else
    match Numeral.integer? s with
    | some n => .int n
    | none =>
      match Numeral.real? s with
      | some d => .real d
      | none => .str s

/-- What follows the prefix of the name of a variable. -/
def suffix? (name : String) : Option (List Char) :=
  if namePrefix.toList.isPrefixOf name.toList then
    some (name.toList.drop namePrefix.toList.length)
  else none

/-- The section and the key that the name of a variable stands for. -/
def target? (name : String) : Option (String × String) :=
  (suffix? name).bind fun rest =>
    let cs := (Text.lowerString (String.ofList rest)).toList
    let sectionPart := cs.takeWhile (· != '_')
    let keyPart := (cs.dropWhile (· != '_')).drop 1
    if sectionPart.isEmpty || keyPart.isEmpty then none
    else some (String.ofList sectionPart, String.ofList keyPart)

/-- The entries of a section among sections. -/
def entriesOf (sectionName : String) (sections : Entries) : Entries :=
  match Value.field? sectionName sections with
  | some (.dict entries) => entries
  | _ => []

/-- Enter a variable into the sections. -/
def enter (sections : Entries) (binding : String × String) : Entries :=
  match target? binding.1 with
  | none => sections
  | some (sectionName, key) =>
    let entries := Value.put (.str key) (settingOf binding.2) (entriesOf sectionName sections)
    Value.put (.str sectionName) (.dict entries) sections

/-- The sections that an environment has settings for. -/
def sectionsOf (vars : Variables) : Entries := vars.foldl enter []

end ModulePath.Config.Environment

namespace ModulePath.Config

/-- Give the environment its tree, if it has any setting. -/
def Store.loadEnvironment (st : Store) (vars : Environment.Variables) : Store :=
  match Environment.sectionsOf vars with
  | [] => st
  | sections => st.replace .environment [(.str rootKey, .dict sections)]

end ModulePath.Config
