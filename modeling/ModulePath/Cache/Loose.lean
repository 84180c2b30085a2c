import ModulePath.Cache.Basic

/-!
# Caches with loose keys

A cache whose keys are loose data. Lists and dictionaries cannot be keys: using one is a fault, but
a cache that is not in use does not look at its keys when it is read or written.
-/

set_option autoImplicit false

namespace ModulePath

/-- Loose data are the same key when they are equal as keys. -/
instance : BEq Value := ⟨Value.keyEq⟩

namespace Cache

variable {α : Type}

/-- Run `op` with a key if the key can be one. -/
def withKey {β : Type} (c : Cache Value α) (key : Value)
    (op : Except Fault β × Cache Value α) : Except Fault β × Cache Value α :=
  if key.hashable then op else (.error .kind, c)

/-- Run `op` with a key if the key can be one or the cache is not in use. -/
def withUsedKey {β : Type} (c : Cache Value α) (key : Value)
    (op : Except Fault β × Cache Value α) : Except Fault β × Cache Value α :=
  if c.isEnabled then c.withKey key op else op

/-- Look a loose key up. -/
def lookUp (c : Cache Value α) (key : Value) : Except Fault (Option α) × Cache Value α :=
  c.withUsedKey key ((c.get key).map .ok id)

/-- Store a value under a loose key. -/
def store (c : Cache Value α) (key : Value) (v : Option α) : Except Fault Unit × Cache Value α :=
  c.withUsedKey key (c.set key v)

/-- Look a loose key up; if it gives no value, store and answer the one that `made` is. -/
def lookUpOrCompute (c : Cache Value α) (key : Value) (made : Option α) :
    Except Fault (Answer α) × Cache Value α :=
  c.withUsedKey key (c.getOrCompute key made)

/-- Drop the entry of a loose key. -/
def drop (c : Cache Value α) (key : Value) : Except Fault Bool × Cache Value α :=
  c.withKey key ((c.invalidate key).map .ok id)

/-- Which of some loose keys have an entry. -/
def containsAll (c : Cache Value α) (keys : List Value) : Except Fault (List Bool) :=
  keys.mapM fun key => if key.hashable then .ok (c.contains key) else .error .kind

end Cache

end ModulePath
