import ModulePath.Yaml.Scalar
import ModulePath.Yaml.Source

/-!
# YAML tokens

A text falls into scalars and indicators, and the structure that indentation shows becomes tokens
of its own. A key is only known at its value indicator: until then the lexer remembers where one may
have begun, and puts the key token in front of it afterwards. A token is there as soon as no key can
be put in front of it; an error in the text comes after the tokens that are there before it.
-/

set_option autoImplicit false

namespace ModulePath.Yaml

/-- A token. -/
inductive Token where
  | documentStart
  | documentEnd
  | blockSequenceStart
  | blockMappingStart
  | blockEnd
  | flowSequenceStart
  | flowSequenceEnd
  | flowMappingStart
  | flowMappingEnd
  | blockEntry
  | flowEntry
  | key
  | value
  | scalar (plain : Bool) (text : String)
  /-- A name for the node that follows. -/
  | anchor (name : String)
  /-- The node with a name. -/
  | alias (name : String)
  /-- The text does not go on. -/
  | broken (failure : Failure Error)
deriving DecidableEq, Repr

namespace Token

/-- A place where a key may have begun. -/
structure KeyPlace where
  /-- The number of tokens before the key. -/
  number : Nat
  /-- Whether only a key may begin there. -/
  required : Bool
  cursor : Cursor

/-- The state of the lexer. -/
structure Lexer where
  cursor : Cursor
  /-- Why the text does not go on at its end, if it should. -/
  failure : Option (Failure Error) := none
  /-- The tokens so far, the last first. -/
  tokens : List Token := []
  /-- Whether there are no more tokens. -/
  ended : Bool := false
  /-- The column of the block that the cursor is in; outside of all blocks it is -1. -/
  indent : Int := -1
  /-- The columns of the blocks around it, the innermost first. -/
  indents : List Int := []
  /-- How many brackets are open. -/
  depth : Nat := 0
  /-- Whether a key may begin at the cursor. -/
  keyAllowed : Bool := true
  /-- Where a key may have begun, for every number of open brackets. -/
  places : List (Nat × KeyPlace) := []

namespace Lexer

/-- Whether the cursor is between brackets. -/
def inFlow (l : Lexer) : Bool := l.depth ≠ 0

/-- The column of the cursor. -/
def column (l : Lexer) : Int := l.cursor.column

/-- Add a token. -/
def push (t : Token) (l : Lexer) : Lexer := { l with tokens := t :: l.tokens }

/-- Put a token behind the first `n` ones. -/
def pushAt (n : Nat) (t : Token) (l : Lexer) : Lexer :=
  let later := l.tokens.length - n
  { l with tokens := l.tokens.take later ++ t :: l.tokens.drop later }

/-- Step over `n` characters. -/
def skip (n : Nat) (l : Lexer) : Lexer := { l with cursor := l.cursor.advance n }

/-! ## Blanks -/

/-- Skip spaces, comments and line breaks. After a line break outside of brackets a key may
begin. -/
def skipGap : Nat → Lexer → Lexer
  | 0, l => l
  | fuel + 1, l =>
    let afterSpaces := l.cursor.rest.dropWhile (· = ' ')
    let tail :=
      if afterSpaces.head? == some '#' then afterSpaces.dropWhile fun c => !isBreak c
      else afterSpaces
    let l := { l with cursor := l.cursor.moveTo tail }
    match lineBreak? tail with
    | none => l
    | some (_, rest) =>
      skipGap fuel { l with
        cursor := l.cursor.moveTo rest
        keyAllowed := l.keyAllowed || !l.inFlow }

/-! ## Keys -/

/-- Whether a key that began at `p` can no longer get its value indicator. -/
def isStale (l : Lexer) (p : KeyPlace) : Bool :=
  p.cursor.line ≠ l.cursor.line || 1024 < l.cursor.index - p.cursor.index

/-- Forget places that are stale. -/
def dropStale (l : Lexer) : Outcome Error Lexer :=
  if l.places.any fun p => l.isStale p.2 && p.2.required then Outcome.refuse .openKey
  else .ok { l with places := l.places.filter fun p => !l.isStale p.2 }

/-- Forget the place at the current depth. -/
def dropPlace (l : Lexer) : Outcome Error Lexer :=
  if l.places.any fun p => p.1 = l.depth && p.2.required then Outcome.refuse .openKey
  else .ok { l with places := l.places.filter fun p => p.1 ≠ l.depth }

/-- Remember that a key may begin at the cursor. -/
def savePlace (l : Lexer) : Outcome Error Lexer :=
  if l.keyAllowed then do
    let required := !l.inFlow && l.indent == l.column
    let l ← l.dropPlace
    return { l with places := (l.depth, ⟨l.tokens.length, required, l.cursor⟩) :: l.places }
  else .ok l

/-! ## Indentation -/

/-- End the blocks that are further in than `column`. -/
def unwind (column : Int) : List Int → Lexer → Lexer
  | [], l => l
  | outer :: rest, l =>
    if column < l.indent then
      unwind column rest { l.push .blockEnd with indent := outer, indents := rest }
    else l

/-- End the blocks that a column is left of; between brackets columns do not count. -/
def dedent (column : Int) (l : Lexer) : Lexer :=
  if l.inFlow then l else unwind column l.indents l

/-- Whether a block can begin at a column. -/
def indents? (column : Int) (l : Lexer) : Bool := l.indent < column

/-- Begin a block at a column. -/
def enter (column : Int) (l : Lexer) : Lexer :=
  { l with indent := column, indents := l.indent :: l.indents }

/-- Begin a block of a kind at the cursor if it is further in than the block around it. -/
def enterBlock (start : Token) (l : Lexer) : Lexer :=
  if !l.inFlow && l.indents? l.column then (l.enter l.column).push start else l

/-! ## Tokens -/

/-- Read a document separator. -/
def separator (t : Token) (l : Lexer) : Outcome Error Lexer := do
  let l ← (l.dedent (-1)).dropPlace
  return ({ l with keyAllowed := false }.skip 3).push t

/-- Read an opening bracket. -/
def openFlow (t : Token) (l : Lexer) : Outcome Error Lexer := do
  let l ← l.savePlace
  return ({ l with depth := l.depth + 1, keyAllowed := true }.skip 1).push t

/-- Read a closing bracket. -/
def closeFlow (t : Token) (l : Lexer) : Outcome Error Lexer :=
  if l.inFlow then do
    let l ← l.dropPlace
    return ({ l with depth := l.depth - 1, keyAllowed := false }.skip 1).push t
  else Outcome.refuse .unexpectedToken

/-- Read a comma. -/
def flowEntry (l : Lexer) : Outcome Error Lexer := do
  let l ← l.dropPlace
  return ({ l with keyAllowed := true }.skip 1).push .flowEntry

/-- Read the indicator of a sequence entry. -/
def blockEntry (l : Lexer) : Outcome Error Lexer :=
  if !l.inFlow && !l.keyAllowed then Outcome.refuse .misplaced
  else do
    let l ← { l.enterBlock .blockSequenceStart with keyAllowed := true }.dropPlace
    return (l.skip 1).push .blockEntry

/-- Read the indicator of a key. -/
def keyIndicator (l : Lexer) : Outcome Error Lexer :=
  if !l.inFlow && !l.keyAllowed then Outcome.refuse .misplaced
  else do
    let l ← { l.enterBlock .blockMappingStart with keyAllowed := !l.inFlow }.dropPlace
    return (l.skip 1).push .key

/-- Read the indicator of a value. If a key may have begun on the line, it did. -/
def valueIndicator (l : Lexer) : Outcome Error Lexer :=
  match l.places.lookup l.depth with
  | some p =>
    let l := { l with
      places := l.places.filter fun q => q.1 ≠ l.depth
      keyAllowed := false }
    let l := l.pushAt p.number .key
    let column : Int := p.cursor.column
    let l :=
      if !l.inFlow && l.indents? column then (l.enter column).pushAt p.number .blockMappingStart
      else l
    .ok ((l.skip 1).push .value)
  | none =>
    if !l.inFlow && !l.keyAllowed then Outcome.refuse .misplaced
    else do
      let l ← { l.enterBlock .blockMappingStart with keyAllowed := !l.inFlow }.dropPlace
      return (l.skip 1).push .value

/-- Read a plain scalar. -/
def plain (l : Lexer) : Outcome Error Lexer := do
  let l ← l.savePlace
  let p := plainScalar l.inFlow (l.indent + 1) (l.cursor.rest.length + 1) l.cursor
  return { l with cursor := p.cursor, keyAllowed := p.broken }.push
    (.scalar true (String.ofList p.text))

/-- Read a quoted scalar. -/
def quoted (quote : Char) (l : Lexer) : Outcome Error Lexer := do
  let l ← l.savePlace
  let body := l.cursor.rest.drop 1
  let (points, rest) ← quotedScalar? quote (body.length + 1) body
  return { l with cursor := l.cursor.moveTo rest, keyAllowed := false }.push
    (.scalar false (String.ofList (Text.ofCodePoints points)))

/-- Whether a name can have a character. -/
def isNameCharacter (c : Char) : Bool :=
  ('0' ≤ c && c ≤ '9') || ('A' ≤ c && c ≤ 'Z') || ('a' ≤ c && c ≤ 'z') || c = '-' || c = '_'

/-- Whether a name can end before a text. -/
def endsName : List Char → Bool
  | [] => true
  | c :: _ => isBlank c || isBreak c || ['?', ':', ',', ']', '\x7d', '%', '@', '\x60'].contains c

/-- Read the name of a node after its indicator. -/
def label (make : String → Token) (l : Lexer) : Outcome Error Lexer := do
  let l ← l.savePlace
  let name := (l.cursor.rest.drop 1).takeWhile isNameCharacter
  let rest := (l.cursor.rest.drop 1).dropWhile isNameCharacter
  if name.isEmpty || !endsName rest then Outcome.refuse (.badCharacter (rest.headD '\n'))
  else
    return ({ l with keyAllowed := false }.skip (name.length + 1)).push (make (String.ofList name))

/-- Characters that begin nothing by themselves, or something that is not read. -/
def reserved : List Char := ['-', '?', ':', '#', '%', '@', '\x60', '\t']

/-- Read the token that begins with `c` and goes on with `rest`. -/
def token (c : Char) (rest : List Char) (l : Lexer) : Outcome Error Lexer :=
  if l.cursor.column = 0 && c = '%' then Outcome.refuse .unsupported
  else if l.cursor.column = 0 && atSeparator (c :: rest) then
    l.separator (if c = '-' then .documentStart else .documentEnd)
  else if c = '[' then l.openFlow .flowSequenceStart
  else if c = '\x7b' then l.openFlow .flowMappingStart
  else if c = ']' then l.closeFlow .flowSequenceEnd
  else if c = '\x7d' then l.closeFlow .flowMappingEnd
  else if c = ',' then l.flowEntry
  else if c = '-' && atGap rest then l.blockEntry
  else if c = '?' && (l.inFlow || atGap rest) then l.keyIndicator
  else if c = ':' && (l.inFlow || atGap rest) then l.valueIndicator
  else if c = '*' then l.label .alias
  else if c = '&' then l.label .anchor
  else if c = '!' then Outcome.refuse .unsupported
  else if (c = '|' || c = '>') && !l.inFlow then Outcome.refuse .unsupported
  else if c = '\x27' || c = '\x22' then l.quoted c
  else if c = '|' || c = '>' then Outcome.refuse (.badCharacter c)
  else if !reserved.contains c then l.plain
  else if !atGap rest && (c = '-' || (!l.inFlow && (c = '?' || c = ':'))) then l.plain
  else Outcome.refuse (.badCharacter c)

/-- The lexer after a token. A text that should go on at its end has to be known behind the
token. -/
def known (l : Lexer) (after : Outcome Error Lexer) : Outcome Error Lexer :=
  match l.failure, after with
  | some f, .ok l => if l.cursor.rest.isEmpty then .error f else .ok l
  | some f, .error (.refused .unclosedQuote) => .error f
  | _, r => r

/-- Read one more token, and those that indentation shows before it. -/
def fetch (l : Lexer) : Outcome Error Lexer := do
  let l ← l.known (.ok (skipGap (l.cursor.rest.length + 1) l))
  let l ← l.dropStale
  let l := l.dedent l.column
  match l.cursor.rest with
  | [] => do
    let l ← (l.dedent (-1)).dropPlace
    return { l with ended := true }
  | c :: rest => l.known (l.token c rest)

/-- The tokens that are there before the failure that ends them, if one does; the first `n` are. -/
def pull : Nat → Nat → Lexer → List Token
  | 0, _, l => l.tokens.reverse
  | fuel + 1, n, l =>
    let stop (f : Failure Error) : List Token := l.tokens.reverse.take n ++ [.broken f]
    if l.ended then l.tokens.reverse
    else if l.tokens.length ≤ n then
      match l.fetch with
      | .ok l => pull fuel n l
      | .error f => stop f
    else
      match l.dropStale with
      | .error f => stop f
      | .ok l =>
        if l.places.any fun p => p.2.number = n then
          match l.fetch with
          | .ok l => pull fuel n l
          | .error f => stop f
        else pull fuel (n + 1) l

end Lexer

/-- The text without a byte order mark. -/
def start (cs : List Char) : Cursor :=
  match cs with
  | '\uFEFF' :: rest => ⟨rest, 1, 0, 0⟩
  | cs => { rest := cs }

/-- The tokens of a text. -/
def ofSource (s : Source) : List Token :=
  Lexer.pull (8 * s.text.length + 8) 0 { cursor := start s.text, failure := s.failure }

end Token

end ModulePath.Yaml
