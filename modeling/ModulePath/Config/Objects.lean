import ModulePath.Config.Store

/-!
# Trees in memory

`Store` tells what the trees of the sources hold. In memory a dictionary is an object, and a list or
another dictionary holds a reference to it. So one dictionary can stand in several places: a value
that a key is given is stored as it is and not copied, and a file can name a dictionary and refer to
it again. A write changes the dictionary that it goes into in all places where that stands.
-/

set_option autoImplicit false

namespace ModulePath

/-- Whether a piece of data is no list, no tuple and no dictionary. -/
def Value.isAtom : Value → Bool
  | list _ | tuple _ | dict _ => false
  | _ => true

namespace Config

/-- A piece of data in which no dictionary can stand. -/
abbrev Atom := { v : Value // v.isAtom = true }

/-- What stands in a place in memory; a dictionary stands there by its number. -/
inductive Cell where
  | atom (a : Atom)
  | list (items : List Cell)
  | tuple (items : List Cell)
  | dict (number : Nat)

/-- A dictionary in memory: its keys, and what stands under them. -/
abbrev Object := List (Value × Cell)

/-- The dictionaries in memory; the number of one is its place among them. -/
structure Heap where
  objects : List Object := []

namespace Heap

/-- The dictionary with a number. -/
def object? (h : Heap) (n : Nat) : Option Object := h.objects[n]?

/-- What stands under a text key of a dictionary. -/
def under? (h : Heap) (n : Nat) (key : String) : Option Cell :=
  (h.object? n).bind (Value.field? key)

/-- Give a text key of a dictionary another cell. -/
def put (h : Heap) (n : Nat) (key : String) (c : Cell) : Heap :=
  ⟨h.objects.modify n (Value.put (.str key) c)⟩

/-- A new dictionary. -/
def add (h : Heap) (o : Object) : Nat × Heap := (h.objects.length, ⟨h.objects ++ [o]⟩)

/-- The cell below `c` along a path of text keys. -/
def cellAt? (h : Heap) (c : Cell) : List String → Option Cell
  | [] => some c
  | part :: rest =>
    match c with
    | .dict n => (h.under? n part).bind fun below => h.cellAt? below rest
    | _ => none

/-- Walk along a path below a cell and put `x` at its end. A dictionary that is missing is entered
before the walk goes on in it, and where the walk cannot go on it stops. The answer is what the walk
leaves, and what stops it, if anything does. -/
def write (x : Cell) : List String → Cell → Heap → Heap × Option Fault
  | [], _, h => (h, none)
  | [part], .dict n, h => (h.put n part x, none)
  | [_], _, h => (h, some .kind)
  | part :: rest, .dict n, h =>
    match h.under? n part with
    | some below => write x rest below h
    | none =>
      let (new, h) := h.add []
      write x rest (.dict new) (h.put n part (.dict new))
  | _, _, h => (h, some .missingAttribute)

mutual
/-- Copy data into memory, with a new dictionary for each one in it. -/
def enter : Value → Heap → Cell × Heap
  | .list items, h =>
    let (cells, h) := enterAll items h
    (.list cells, h)
  | .tuple items, h =>
    let (cells, h) := enterAll items h
    (.tuple cells, h)
  | .dict entries, h =>
    let (o, h) := enterEntries entries h
    let (n, h) := h.add o
    (.dict n, h)
  | .null, h => (.atom ⟨.null, rfl⟩, h)
  | .bool b, h => (.atom ⟨.bool b, rfl⟩, h)
  | .int n, h => (.atom ⟨.int n, rfl⟩, h)
  | .real d, h => (.atom ⟨.real d, rfl⟩, h)
  | .str s, h => (.atom ⟨.str s, rfl⟩, h)
  | .set members, h => (.atom ⟨.set members, rfl⟩, h)
/-- Copy the members of a list into memory. -/
def enterAll : List Value → Heap → List Cell × Heap
  | [], h => ([], h)
  | v :: vs, h =>
    let (c, h) := enter v h
    let (cells, h) := enterAll vs h
    (c :: cells, h)
/-- Copy the entries of a dictionary into memory. -/
def enterEntries : List (Value × Value) → Heap → Object × Heap
  | [], h => ([], h)
  | (key, v) :: rest, h =>
    let (c, h) := enter v h
    let (o, h) := enterEntries rest h
    ((key, c) :: o, h)
end

end Heap

/-- A store in memory: the tree of each source that gave one is a dictionary. -/
structure LiveStore where
  heap : Heap
  root : Source → Option Nat

namespace LiveStore

/-- Give a source a dictionary as its tree. -/
def setRoot (m : LiveStore) (s : Source) (n : Nat) : LiveStore :=
  { m with root := fun t => if t = s then some n else m.root t }

/-! ## Reading -/

/-- What a source has for a key. -/
def settingIn? (m : LiveStore) (parts : List String) (s : Source) : Option Cell :=
  (m.root s).bind fun n => m.heap.cellAt? (.dict n) parts

/-- What a source has for a key; nothing counts as no value. -/
def valueIn? (m : LiveStore) (parts : List String) (s : Source) : Option Cell :=
  match m.settingIn? parts s with
  | some (.atom ⟨.null, _⟩) => none
  | c => c

/-- The value of a key and the highest source that has one. -/
def getWithSource? (m : LiveStore) (key : String) : Option (Source × Cell) :=
  Source.ascending.reverse.findSome? fun s => (m.valueIn? (keyParts key) s).map (s, ·)

/-- The value of a key. -/
def get? (m : LiveStore) (key : String) : Option Cell := (m.getWithSource? key).map (·.2)

/-! ## Writing -/

/-- The dictionary that is the tree of a source, a new one if it has none. -/
def rooted (m : LiveStore) (s : Source) : Nat × LiveStore :=
  match m.root s with
  | some n => (n, m)
  | none =>
    let (n, heap) := m.heap.add []
    (n, { m with heap }.setRoot s n)

/-- Give a key a value in a source. The value is not copied. -/
def set (m : LiveStore) (key : String) (x : Cell) (s : Source) : LiveStore × Option Fault :=
  let (n, m) := m.rooted s
  let (heap, stopped) := m.heap.write x (keyParts key) (.dict n)
  ({ m with heap }, stopped)

/-- Give a source a copy of a tree. -/
def replace (m : LiveStore) (s : Source) (entries : Entries) : LiveStore :=
  let (o, heap) := m.heap.enterEntries entries
  let (n, heap) := heap.add o
  { m with heap }.setRoot s n

/-- Give a source the tree of a configuration, which is copied. -/
def load (m : LiveStore) (v : Value) (s : Source) : Outcome Error LiveStore := do
  Store.checkFrom s.text v
  match v with
  | .dict entries => return m.replace s (Store.wrap entries)
  | _ => return m

/-- Drop the tree of a source; the defaults stay. -/
def clear (m : LiveStore) (s : Source) : LiveStore :=
  { m with root := fun t => if t = s && t ≠ .defaults then none else m.root t }

/-- Drop all trees but the defaults. -/
def clearAll (m : LiveStore) : LiveStore :=
  { m with root := fun t => if t = .defaults then m.root t else none }

/-- Give a source a copy of the tree that it has in a store. -/
def fill (st : Store) (m : LiveStore) (s : Source) : LiveStore :=
  match st.tree s with
  | some entries => m.replace s entries
  | none => m

/-- The trees of a store, copied into an empty memory. -/
def ofStore (st : Store) : LiveStore := Source.ascending.foldl (fill st) ⟨{}, fun _ => none⟩

end LiveStore

end Config

end ModulePath
