import ModulePath.Config.Environment
import ModulePath.Program.Basic
import ModulePath.Yaml.Reader

/-!
# Configuration files

A source can get its tree from a YAML file, which has to hold a dictionary. A name that begins with
`~` stands for a path below the home directory of a user.
-/

set_option autoImplicit false

namespace ModulePath.Config

/-! ## Home directories -/

/-- A home directory without separators at its end. The top has no name of its own. -/
def trimHome (home : String) : String :=
  let trimmed := Text.dropEndWhile (· = '/') home.toList
  if trimmed.isEmpty then "/" else String.ofList trimmed

/-- The path of a file: a first component `~` stands for the home directory of the one who runs the
program, and `~user` for that of another user. -/
def expandHome {ε : Type} (p : Path) : Program ε Path :=
  match p.anchor, p.parts.map String.toList with
  | .relative, ('~' :: user) :: _ =>
    if user.contains '\x00' then .fault .value
    else do
      match (← Program.query (.home (String.ofList user))).map trimHome with
      | some home =>
        if home.toList.head? == some '~' then .fault .home
        else
          let h := Path.ofText home
          return ⟨h.anchor, h.parts ++ p.parts.drop 1⟩
      | none => .fault .home
  | _, _ => return p

/-! ## Files -/

/-- What `read` makes of a configuration file. -/
def fromFile {α : Type} (read : Content → Outcome Unit α) (file : String) : Program Error α := do
  let path ← expandHome (Path.ofText file)
  if ← Program.presence? path then
    if ← Program.isDirectory path then .refuse (.directory file path)
    else
      let content ← Program.content path (.unreadable file)
      .ofOutcome <| Outcome.mapCause (fun _ => .syntaxError file) (read content)
  else .refuse (.missingFile file)

/-- The data in a configuration file. -/
def data (yaml : Yaml.Reader) (file : String) : Program Error Value := fromFile yaml.read file

namespace Store

/-- Give a source the tree of the data in a file. -/
def loadData (st : Store) (file : String) (s : Source) : Value → Outcome Error Store
  | .dict entries => st.loadFrom file (.dict entries) s
  | _ => Outcome.refuse (.notDictionary file)

/-- Give a source the tree of a file. -/
def loadFile (st : Store) (yaml : Yaml.Reader) (file : String) (s : Source) :
    Program Error Store := do
  let v ← data yaml file
  .ofOutcome (st.loadData file s v)

/-- The store of a file, if one is named, and an environment. An empty name names none. -/
def ofFile (yaml : Yaml.Reader) (file : Option String) (vars : Environment.Variables) :
    Program Error Store := do
  let st ←
    match file.filter fun f => !f.isEmpty with
    | some f => initial.loadFile yaml f .user
    | none => pure initial
  return st.loadEnvironment vars

end Store

end ModulePath.Config
