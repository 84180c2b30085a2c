import ModulePath.Text.Blank
import ModulePath.Text.Quoted
import ModulePath.Value.Basic

/-!
# Usable paths and names

What a rule path, a path inside a module root and the name of a layer, overlay or add-on have to
look like. Each check names the first fault it finds.
-/

set_option autoImplicit false

namespace ModulePath

/-! ## Paths -/

/-- What is wrong with a path. -/
inductive PathFault where
  | notText (kind : String)
  | empty
  | tooLong
  | nullByte
  | control
  | absolute (path : String)
  | traversal
deriving DecidableEq

/-- The most characters a path may have. -/
def maxPathLength : Nat := 4096

/-- The text of a path fault. -/
def PathFault.message : PathFault → String
  | notText kind => "Path must be string, got " ++ kind
  | empty => "Path cannot be empty"
  | tooLong => "Path exceeds maximum length (" ++ toString maxPathLength ++ ")"
  | nullByte => "Path contains null bytes"
  | control => "Path contains control characters"
  | absolute path => "Path must be relative: " ++ path
  | traversal => "Path traversal not allowed"

/-- What is wrong with a text as a rule path: it must not be empty, too long, or hold a control
character. -/
def rulePathFault? (path : String) : Option PathFault :=
  if path.isEmpty then some .empty
  else if maxPathLength < path.length then some .tooLong
  else if path.toList.contains '\x00' then some .nullByte
  else if path.toList.any fun c => c.toNat < 32 then some .control
  else none

/-- What is wrong with a text as a path inside a root: it must be a rule path that is relative and
does not step out of its parent. -/
def relativePathFault? (path : String) : Option PathFault :=
  match rulePathFault? path with
  | some f => some f
  | none =>
    if path.toList.head? == some '/' then some (.absolute path)
    else if (Text.splitAt '/' path.toList).contains ['.', '.'] then some .traversal
    else none

/-! ## Names -/

/-- What is wrong with a name. -/
inductive NameFault where
  | notText (kind : String)
  | empty
  | tooLong
  | reserved (name : String)
  | separator (name : String)
deriving DecidableEq

/-- The most characters a name may have. -/
def maxNameLength : Nat := 255

/-- The text of a name fault. -/
def NameFault.message : NameFault → String
  | notText kind => "Name must be string, got " ++ kind
  | empty => "Name cannot be empty"
  | tooLong => "Name exceeds maximum length (" ++ toString maxNameLength ++ ")"
  | reserved name => "Name cannot be '" ++ name ++ "'"
  | separator name => "Name contains a path separator or null byte: " ++ Text.quoted name

/-- What is wrong with a text as the name of one directory. -/
def nameFault? (name : String) : Option NameFault :=
  if name.isEmpty then some .empty
  else if maxNameLength < name.length then some .tooLong
  else if name == "." || name == ".." then some (.reserved name)
  else if name.toList.any fun c => c == '/' || c == '\\' || c == '\x00' then some (.separator name)
  else none

/-! ## Loose data -/

/-- A rule path from loose data. -/
def rulePath? : Value → Except PathFault String
  | .str s => match rulePathFault? s with
    | some f => .error f
    | none => .ok s
  | v => .error (.notText v.kindName)

/-- A path inside a root from loose data. -/
def relativePath? : Value → Except PathFault String
  | .str s => match relativePathFault? s with
    | some f => .error f
    | none => .ok s
  | v => .error (.notText v.kindName)

/-- A name from loose data. -/
def layerName? : Value → Except NameFault String
  | .str s => match nameFault? s with
    | some f => .error f
    | none => .ok s
  | v => .error (.notText v.kindName)

end ModulePath
