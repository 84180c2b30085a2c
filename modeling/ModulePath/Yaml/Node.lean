import ModulePath.Yaml.Token

/-!
# YAML nodes

The tokens of a document make up one node: a scalar, a sequence or a mapping. Where the grammar
leaves a node out, an empty plain scalar stands for it. A collection with an anchor is kept beside
the node, which refers to it in all places where it stands.
-/

set_option autoImplicit false

namespace ModulePath.Yaml

/-- A node. -/
inductive Node where
  | scalar (plain : Bool) (text : String)
  | sequence (items : List Node)
  | mapping (entries : List (Node × Node))
  /-- A collection with an anchor, by its number. -/
  | named (number : Nat)
deriving Inhabited

/-- A document: its node, and its collections with anchors. Such a collection refers only to those
before it. -/
structure Document where
  collections : List Node := []
  node : Node

namespace Node

/-- The node that is left out. -/
def empty : Node := .scalar true ""

/-! ## Anchors -/

/-- What anchors name. -/
structure Names where
  /-- The node with an anchor; a collection is none yet while it is read. -/
  anchors : List (String × Option Node) := []
  collections : List Node := []

namespace Names

/-- An anchor names what is read next. -/
def begin (names : Names) (name : String) : Names :=
  { names with anchors := (name, none) :: names.anchors }

/-- An anchor names a node. A collection is kept, and the answer refers to it. -/
def finish (names : Names) (name : String) : Node → Node × Names
  | .scalar plain text =>
    let named : Node := .scalar plain text
    (named, { names with anchors := (name, some named) :: names.anchors })
  | n =>
    let named := Node.named names.collections.length
    (named, ⟨(name, some named) :: names.anchors, names.collections ++ [n]⟩)

/-- The node that an alias stands for. -/
def node? (names : Names) (name : String) : Outcome Error Node :=
  match names.anchors.lookup name with
  | some (some n) => .ok n
  | some none => Outcome.refuse .unsupported
  | none => Outcome.refuse (.unknownAlias name)

end Names

/-! ## Reading -/

/-- Whether the next token is one of some tokens. -/
def next (ts : List Token) (ends : List Token) : Bool :=
  match ts with
  | [] => false
  | t :: _ => ends.contains t

/-- Refuse the next token. -/
def unexpected {α : Type} (ts : List Token) : Outcome Error α :=
  match ts with
  | .broken f :: _ => .error f
  | _ => Outcome.refuse .unexpectedToken

/-- Expect a token. -/
def expect (t : Token) (ts : List Token) : Outcome Error (List Token) :=
  match ts with
  | u :: rest => if u = t then .ok rest else unexpected ts
  | [] => unexpected ts

/-- What a node may begin with beside a scalar or a bracket. -/
inductive Place where
  /-- Between brackets: nothing else. -/
  | flow
  /-- In a block: another block. -/
  | block
  /-- In a mapping: another block, or the entries of a sequence that is not indented. -/
  | entry
deriving DecidableEq

/-- How many collections may be inside one another. -/
def maxDepth : Nat := 480

/-- How many collections may be inside one more collection. -/
def deeper? : Nat → Outcome Error Nat
  | 0 => Outcome.fault .depth
  | room + 1 => .ok room

/-- Whether a node begins with the next token. -/
def begins (place : Place) : List Token → Bool
  | .scalar .. :: _ | .flowSequenceStart :: _ | .flowMappingStart :: _ => true
  | .blockSequenceStart :: _ | .blockMappingStart :: _ => place ≠ .flow
  | .blockEntry :: _ => place = .entry
  | _ => false

mutual
/-- Read a node, when so many collections may be inside one another. -/
def node? (place : Place) (room : Nat) :
    Nat → Names → List Token → Outcome Error (Node × Names × List Token)
  | 0, _, _ => Outcome.refuse .unexpectedToken
  | fuel + 1, names, ts =>
    match ts with
    | .scalar plain text :: rest => .ok (.scalar plain text, names, rest)
    | .flowSequenceStart :: rest => do
      let room ← deeper? room
      let (items, names, rest) ← flowItems? true room fuel names rest
      return (.sequence items, names, rest)
    | .flowMappingStart :: rest => do
      let room ← deeper? room
      let (entries, names, rest) ← flowEntries? true room fuel names rest
      return (.mapping entries, names, rest)
    | .blockSequenceStart :: rest => do
      if place = .flow then Outcome.refuse .unexpectedToken
      let room ← deeper? room
      let (items, names, rest) ← blockItems? [.blockEntry, .blockEnd] room fuel names rest
      return (.sequence items, names, ← expect .blockEnd rest)
    | .blockMappingStart :: rest => do
      if place = .flow then Outcome.refuse .unexpectedToken
      let room ← deeper? room
      let (entries, names, rest) ← blockEntries? room fuel names rest
      return (.mapping entries, names, ← expect .blockEnd rest)
    | .blockEntry :: rest => do
      if place ≠ .entry then Outcome.refuse .unexpectedToken
      let room ← deeper? room
      let ends := [.blockEntry, .key, .value, .blockEnd]
      let (items, names, rest) ← blockItems? ends room fuel names (.blockEntry :: rest)
      return (.sequence items, names, rest)
    | .alias name :: rest => do
      let n ← names.node? name
      return (n, names, rest)
    | .anchor _ :: .broken f :: _ => .error f
    | .anchor name :: rest => do
      if (names.anchors.lookup name).isSome then Outcome.refuse (.repeatedAnchor name)
      let (n, names, rest) ←
        if begins place rest then node? place room fuel (names.begin name) rest
        else .ok (empty, names, rest)
      let (n, names) := names.finish name n
      return (n, names, rest)
    | ts => unexpected ts
termination_by structural fuel => fuel

/-- Read a node that is left out if one of `ends` comes next. -/
def optional? (place : Place) (ends : List Token) (room : Nat) :
    Nat → Names → List Token → Outcome Error (Node × Names × List Token)
  | 0, _, _ => Outcome.refuse .unexpectedToken
  | fuel + 1, names, ts =>
    if next ts ends then .ok (empty, names, ts) else node? place room fuel names ts
termination_by structural fuel => fuel

/-- Read the entries of a block sequence; one is left out before one of `ends`. -/
def blockItems? (ends : List Token) (room : Nat) :
    Nat → Names → List Token → Outcome Error (List Node × Names × List Token)
  | 0, _, _ => Outcome.refuse .unexpectedToken
  | fuel + 1, names, ts =>
    match ts with
    | .blockEntry :: rest => do
      let (item, names, rest) ← optional? .block ends room fuel names rest
      let (items, names, rest) ← blockItems? ends room fuel names rest
      return (item :: items, names, rest)
    | ts => .ok ([], names, ts)
termination_by structural fuel => fuel

/-- Read the value of an entry, left out if there is no indicator or one of `ends` follows it. -/
def entryValue? (place : Place) (ends : List Token) (room : Nat) :
    Nat → Names → List Token → Outcome Error (Node × Names × List Token)
  | 0, _, _ => Outcome.refuse .unexpectedToken
  | fuel + 1, names, ts =>
    match ts with
    | .value :: rest => optional? place ends room fuel names rest
    | ts => .ok (empty, names, ts)
termination_by structural fuel => fuel

/-- Read the entries of a block mapping. -/
def blockEntries? (room : Nat) :
    Nat → Names → List Token → Outcome Error (List (Node × Node) × Names × List Token)
  | 0, _, _ => Outcome.refuse .unexpectedToken
  | fuel + 1, names, ts =>
    match ts with
    | .key :: rest => do
      let ends := [.key, .value, .blockEnd]
      let (key, names, rest) ← optional? .entry ends room fuel names rest
      let (v, names, rest) ← entryValue? .entry ends room fuel names rest
      let (entries, names, rest) ← blockEntries? room fuel names rest
      return ((key, v) :: entries, names, rest)
    | ts => .ok ([], names, ts)
termination_by structural fuel => fuel

/-- Read the items of a sequence in brackets and the closing bracket. A key and a value among them
are a mapping of one entry. -/
def flowItems? (first : Bool) (room : Nat) :
    Nat → Names → List Token → Outcome Error (List Node × Names × List Token)
  | 0, _, _ => Outcome.refuse .unexpectedToken
  | fuel + 1, names, ts => do
    match ts with
    | .flowSequenceEnd :: rest => return ([], names, rest)
    | _ =>
      let ts ← if first then pure ts else expect .flowEntry ts
      match ts with
      | .flowSequenceEnd :: rest => return ([], names, rest)
      | .key :: rest =>
        let inner ← deeper? room
        let keyEnds := [.value, .flowEntry, .flowSequenceEnd]
        let (key, names, rest) ← optional? .flow keyEnds inner fuel names rest
        let (v, names, rest) ←
          entryValue? .flow [.flowEntry, .flowSequenceEnd] inner fuel names rest
        let (items, names, rest) ← flowItems? false room fuel names rest
        return (.mapping [(key, v)] :: items, names, rest)
      | ts =>
        let (item, names, rest) ← node? .flow room fuel names ts
        let (items, names, rest) ← flowItems? false room fuel names rest
        return (item :: items, names, rest)
termination_by structural fuel => fuel

/-- Read the entries of a mapping in brackets and the closing bracket. -/
def flowEntries? (first : Bool) (room : Nat) :
    Nat → Names → List Token → Outcome Error (List (Node × Node) × Names × List Token)
  | 0, _, _ => Outcome.refuse .unexpectedToken
  | fuel + 1, names, ts => do
    match ts with
    | .flowMappingEnd :: rest => return ([], names, rest)
    | _ =>
      let ts ← if first then pure ts else expect .flowEntry ts
      match ts with
      | .flowMappingEnd :: rest => return ([], names, rest)
      | .key :: rest =>
        let keyEnds := [.value, .flowEntry, .flowMappingEnd]
        let (key, names, rest) ← optional? .flow keyEnds room fuel names rest
        let (v, names, rest) ← entryValue? .flow [.flowEntry, .flowMappingEnd] room fuel names rest
        let (entries, names, rest) ← flowEntries? false room fuel names rest
        return ((key, v) :: entries, names, rest)
      | ts =>
        let (key, names, rest) ← node? .flow room fuel names ts
        let (entries, names, rest) ← flowEntries? false room fuel names rest
        return ((key, empty) :: entries, names, rest)
termination_by structural fuel => fuel
end

/-- A bound on how deep the reading of tokens goes. -/
def fuelFor (ts : List Token) : Nat := 4 * ts.length + 4

/-- Check that a text ends after its document. -/
def checkEnd : List Token → Outcome Error Unit
  | [] => .ok ()
  | .documentEnd :: rest => checkEnd rest
  | .broken f :: _ => .error f
  | _ => Outcome.refuse .secondDocument

end Node

namespace Document

/-- The document without a node. -/
def empty : Document := { node := .empty }

/-- The document that begins with the next token, when the text ends after it. -/
def ofNode? (fuel : Nat) (ts : List Token) : Outcome Error Document := do
  let (node, names, rest) ← Node.node? .block Node.maxDepth fuel {} ts
  Node.checkEnd rest
  return ⟨names.collections, node⟩

/-- The only document of a text. A text without any has the empty one. -/
def ofTokens? (ts : List Token) : Outcome Error Document :=
  match ts with
  | [] => .ok empty
  | .documentStart :: rest =>
    if rest.isEmpty || Node.next rest [.documentStart, .documentEnd] then do
      Node.checkEnd rest
      return empty
    else ofNode? (Node.fuelFor ts) rest
  | ts => ofNode? (Node.fuelFor ts) ts

end Document

end ModulePath.Yaml
