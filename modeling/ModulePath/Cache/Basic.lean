import ModulePath.Cache.Settings

/-!
# Least recently used caches

A cache keeps its entries in the order of their last use, the oldest first. A new entry pushes the
oldest ones out until it fits. An entry may hold nothing: it is found like any other, but gives no
value.
-/

set_option autoImplicit false

namespace ModulePath

/-- A cache from keys to values. -/
structure Cache (κ α : Type) where
  settings : Cache.Settings
  /-- The entries, the least recently used first. -/
  entries : List (κ × Option α) := []
  hits : Nat := 0
  misses : Nat := 0
  evictions : Nat := 0

namespace Cache

variable {κ α : Type} [BEq κ]

/-- An empty cache. -/
def ofSettings? (s : Settings) : Outcome Settings.Error (Cache κ α) := do
  s.check
  return { settings := s }

/-- Whether the cache is in use. -/
def isEnabled (c : Cache κ α) : Bool := c.settings.enabled.truthy

/-- The number of entries. -/
def size (c : Cache κ α) : Nat := c.entries.length

/-- The entries without that of a key. -/
def without (key : κ) (entries : List (κ × Option α)) : List (κ × Option α) :=
  entries.filter fun e => !(e.1 == key)

/-- The entry of a key. -/
def find? (c : Cache κ α) (key : κ) : Option (κ × Option α) :=
  c.entries.find? fun e => e.1 == key

/-- Whether a key has an entry. -/
def contains (c : Cache κ α) (key : κ) : Bool := (c.find? key).isSome

/-! ## Reading -/

/-- Look a key up. An entry that is found becomes the one used last. -/
def get (c : Cache κ α) (key : κ) : Option α × Cache κ α :=
  match if c.isEnabled then c.find? key else none with
  | some e => (e.2, { c with entries := without key c.entries ++ [e], hits := c.hits + 1 })
  | none => (none, { c with misses := c.misses + 1 })

/-! ## Writing -/

/-- Push the oldest entries out until one more fits. A cache that may hold none ends empty and
without room. -/
def makeRoom (c : Cache κ α) : Except Fault Unit × Cache κ α :=
  match Limit.ofValue c.settings.size with
  | .unbounded => (.ok (), c)
  | .unordered => (.error .kind, c)
  | .atMost 0 => (.error .missingKey, { c with entries := [], evictions := c.evictions + c.size })
  | .atMost (n + 1) =>
    let surplus := c.size - n
    (.ok (), { c with entries := c.entries.drop surplus, evictions := c.evictions + surplus })

/-- Store a value. An entry that is there becomes the one used last. -/
def set (c : Cache κ α) (key : κ) (v : Option α) : Except Fault Unit × Cache κ α :=
  if c.isEnabled then
    match c.find? key with
    | some e => (.ok (), { c with entries := without key c.entries ++ [(e.1, v)] })
    | none =>
      match c.makeRoom with
      | (.ok (), c) => (.ok (), { c with entries := c.entries ++ [(key, v)] })
      | (.error f, c) => (.error f, c)
  else (.ok (), c)

/-- A value, and whether it was made anew. -/
structure Answer (α : Type) where
  value : Option α
  isNew : Bool

/-- Look a key up; if it gives no value, store the one that `made` is and answer that. -/
def getOrCompute (c : Cache κ α) (key : κ) (made : Option α) :
    Except Fault (Answer α) × Cache κ α :=
  match c.get key with
  | (some v, c) => (.ok ⟨some v, false⟩, c)
  | (none, c) =>
    match c.set key made with
    | (.ok (), c) => (.ok ⟨made, true⟩, c)
    | (.error f, c) => (.error f, c)

/-- Drop an entry. The answer says whether there was one that held a value. -/
def invalidate (c : Cache κ α) (key : κ) : Bool × Cache κ α :=
  (((c.find? key).bind (·.2)).isSome, { c with entries := without key c.entries })

/-- Drop all entries and the counts. -/
def clear (c : Cache κ α) : Cache κ α :=
  { settings := c.settings }

/-- Switch the cache on or off. -/
def enable (c : Cache κ α) (enabled : Value) : Cache κ α :=
  { c with settings := { c.settings with enabled } }

/-- Give the cache another size. The entries stay until a new one comes. -/
def resize (c : Cache κ α) (size : Value) : Cache κ α :=
  { c with settings := { c.settings with size } }

/-- The share of look-ups that found an entry. -/
def hitRate (c : Cache κ α) : Double :=
  if c.hits + c.misses = 0 then Double.zero
  else Double.ofRatio false c.hits (c.hits + c.misses)

end Cache

end ModulePath
