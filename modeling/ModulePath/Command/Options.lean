import ModulePath.Text.Digit

/-!
# The command line

A command line is read word by word: options, the name of a command, and what the command is about.
Long options may be shortened and take their value after `=` or as the next word; short options may
stand together in one word, and the last of them takes the rest of the word as its value. After the
word `--` no word is an option.
-/

set_option autoImplicit false

namespace ModulePath.Command

/-- What the program is asked to do. -/
inductive Task where
  /-- Print the search path of module roots. -/
  | path (roots : List String)
  /-- Print the edges of a descriptor. -/
  | describe (file : String)
  /-- Print which paths cross the edges of a descriptor. -/
  | check (file : String) (paths : List String)
deriving DecidableEq, Repr

/-- The name of a task on the command line. -/
def Task.name : Task → String
  | path _ => "path"
  | describe _ => "describe"
  | check .. => "check"

/-- A command line that was read. -/
structure Options where
  config : Option String
  debug : Bool
  task : Task
deriving DecidableEq, Repr

/-- Why there is no task. -/
inductive Stop where
  | usage
  | help
  | version
deriving DecidableEq, Repr

/-! ## Options -/

/-- An option. -/
inductive Flag where
  | help
  | version
  | config
  | debug
deriving DecidableEq, Repr

/-- Whether an option has a value. -/
def Flag.takesValue : Flag → Bool
  | config => true
  | _ => false

/-- The options before the name of a command. -/
def mainFlags : List (String × Flag) := [
  ("-h", .help), ("--help", .help), ("-v", .version), ("--version", .version), ("-c", .config),
  ("--config", .config), ("--debug", .debug)]

/-- The options after the name of a command. -/
def taskFlags : List (String × Flag) := [("-h", .help), ("--help", .help)]

/-- The word after which no word is an option. -/
def marker : String := "--"

/-- The options in one word, each with the value that it has there. -/
abbrev Cluster := List (Flag × Option String)

/-- What a word is. -/
inductive Reading where
  | operand
  | options (k : Cluster)
  /-- An option with a value that it cannot have. -/
  | misused
  | unknown
  | ambiguous

/-- Whether a word is a negative number. -/
def isNegativeNumber (word : List Char) : Bool :=
  let isDigit (c : Char) : Bool := (Text.digitValue? c).isSome
  let body := if word.getLast? == some '\n' then word.dropLast else word
  match body with
  | '-' :: digits =>
    let whole := digits.takeWhile isDigit
    match digits.dropWhile isDigit with
    | [] => !whole.isEmpty
    | '.' :: fraction => !fraction.isEmpty && fraction.all isDigit
    | _ => false
  | _ => false

/-- The part of a word before `=`, and the part after it if there is one. -/
def splitValue (word : List Char) : List Char × Option (List Char) :=
  match word.dropWhile (· ≠ '=') with
  | [] => (word, none)
  | _ :: value => (word.takeWhile (· ≠ '='), some value)

/-- The options of a word that begins with a short option, by what follows that option: its value if
it has one, and otherwise further short options. -/
def shortOptions? (flags : List (String × Flag)) (flag : Flag) : List Char → Option Cluster
  | [] => some [(flag, none)]
  | c :: rest =>
    if flag.takesValue then some [(flag, some (String.ofList (c :: rest)))]
    else
      match flags.lookup (String.ofList ['-', c]) with
      | some next => (shortOptions? flags next rest).map ((flag, none) :: ·)
      | none => none

/-- The options of a word that begins with a short option, by what follows that option. A `=` right
behind it is no part of a value, and something has to follow it unless there is a value. -/
def leadingOptions? (flags : List (String × Flag)) (flag : Flag) : List Char → Option Cluster
  | ['='] => if flag.takesValue then some [(flag, some "")] else none
  | '=' :: rest => shortOptions? flags flag rest
  | rest => shortOptions? flags flag rest

/-- A long option with the value that it has in its word. -/
def longOption (flag : Flag) : Option (List Char) → Reading
  | none => .options [(flag, none)]
  | some value =>
    if flag.takesValue then .options [(flag, some (String.ofList value))] else .misused

/-- The long options that a word can stand for: the one that it names, or those that begin with
it. -/
def longFlags (flags : List (String × Flag)) (start : List Char) : List Flag :=
  match flags.lookup (String.ofList start) with
  | some flag => [flag]
  | none => (flags.filter fun f => start.isPrefixOf f.1.toList).map (·.2)

/-- What a word with a dash is that begins with no option. -/
def readUnnamed (word : List Char) : Reading :=
  if isNegativeNumber word || word.contains ' ' then .operand else .unknown

/-- What a word that begins with a dash is. -/
def readDashed (flags : List (String × Flag)) (word : List Char) : Reading :=
  match word with
  | '-' :: '-' :: _ =>
    let (start, value) := splitValue word
    match longFlags flags start with
    | [flag] => longOption flag value
    | _ :: _ => .ambiguous
    | [] => readUnnamed word
  | '-' :: c :: rest =>
    match flags.lookup (String.ofList ['-', c]) with
    | some flag => ((leadingOptions? flags flag rest).map .options).getD .misused
    | none => readUnnamed word
  | _ => .operand

/-- What a word is, when it is not the marker. -/
def read (flags : List (String × Flag)) (word : String) : Reading :=
  match word.toList with
  | '-' :: rest => readDashed flags ('-' :: rest)
  | _ => .operand

/-- Whether a word can be a value or a command. -/
def isOperand (flags : List (String × Flag)) (word : String) : Bool :=
  word ≠ marker &&
    match read flags word with
    | .operand => true
    | _ => false

/-! ## Operands -/

/-- The descriptor and the paths of a check. A marker beside the descriptor belongs to it; of the
markers after that, the first one does not count. -/
def checkOperands? (words : List String) : Option (String × List String) :=
  let marked := words.head? == some marker
  match if marked then words.drop 1 else words with
  | [] => none
  | file :: rest =>
    let paths := if !marked && rest.head? == some marker then rest.drop 1 else rest
    if paths.isEmpty then none else some (file, paths.erase marker)

/-- The task of a command and its operands. -/
def taskOf? (command : String) (words : List String) : Option Task :=
  let operands := words.erase marker
  match command with
  | "path" => if operands.isEmpty then none else some (.path operands)
  | "describe" =>
    match operands with
    | [file] => some (.describe file)
    | _ => none
  | "check" => (checkOperands? words).map fun c => .check c.1 c.2
  | _ => none

/-- Whether the words after a command ask for help, and whether one of them is no word that the
command knows. -/
def scanTask : List String → Except Stop Bool
  | [] => .ok false
  | word :: rest =>
    if word = marker then .ok false
    else
      match read taskFlags word with
      | .operand => scanTask rest
      | .options _ => .error .help
      | .misused => .error .usage
      | _ => (scanTask rest).map fun _ => true

/-- The names of all commands. -/
def taskNames : List String := ["path", "describe", "check"]

/-- Read a command and the words after it. -/
def readTask (command : String) (words : List String) : Except Stop Task := do
  if !taskNames.contains command then .error .usage
  if ← scanTask words then .error .usage
  match taskOf? command words with
  | some t => return t
  | none => .error .usage

/-! ## The whole line -/

/-- What the options so far say. -/
structure Seen where
  config : Option String := none
  debug : Bool := false
  /-- Whether a word is no option that the program knows. -/
  unknown : Bool := false

/-- Take an option. The marker is not a value: an option that has it attached has none. -/
def Seen.take (s : Seen) (flag : Flag) (value : Option String) : Except Stop Seen :=
  match flag with
  | .help => .error .help
  | .version => .error .version
  | .config => .ok { s with config := value.filter (· ≠ marker) }
  | .debug => .ok { s with debug := true }

/-- Take the options of a word. -/
def Seen.takeAll (s : Seen) (k : Cluster) : Except Stop Seen :=
  k.foldlM (fun s option => s.take option.1 option.2) s

/-- Whether the last option of a word takes the next word as its value. -/
def Cluster.wantsValue (k : Cluster) : Bool :=
  match k.getLast? with
  | some (flag, none) => flag.takesValue
  | _ => false

/-- Give the last option of a word a value. -/
def Cluster.withValue (k : Cluster) (value : String) : Cluster :=
  k.dropLast ++ k.getLast?.toList.map fun option => (option.1, some value)

/-- Read the words of a command line. -/
def readWords (s : Seen) : List String → Except Stop Options
  | [] => .error .usage
  | word :: rest =>
    if word = marker then .error .usage
    else
      match read mainFlags word with
      | .ambiguous => .error .usage
      | .misused => .error .usage
      | .unknown => readWords { s with unknown := true } rest
      | .operand => do
        let task ← readTask word rest
        if s.unknown then .error .usage else return ⟨s.config, s.debug, task⟩
      | .options k =>
        if k.wantsValue then
          match rest with
          | next :: rest =>
            if isOperand mainFlags next then do
              let s ← s.takeAll (k.withValue next)
              readWords s rest
            else .error .usage
          | [] => .error .usage
        else do
          let s ← s.takeAll k
          readWords s rest

/-- Whether a word could be more than one option. -/
def isAmbiguous (word : String) : Bool :=
  match read mainFlags word with
  | .ambiguous => true
  | _ => false

/-- Read a command line. A word that could be more than one option is refused wherever it stands. -/
def parse (words : List String) : Except Stop Options :=
  if (words.takeWhile (· ≠ marker)).any isAmbiguous then .error .usage else readWords {} words

end ModulePath.Command
