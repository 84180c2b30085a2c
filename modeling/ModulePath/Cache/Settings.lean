import ModulePath.Config.Store

/-!
# Settings of a cache

How many entries a cache holds and whether it is in use. The size is loose data; `Limit` is what it
says about the number of entries.
-/

set_option autoImplicit false

namespace ModulePath.Cache

/-- How many entries there may be. -/
inductive Limit where
  | atMost (n : Nat)
  | unbounded
  /-- The size is no number. -/
  | unordered
deriving DecidableEq

/-- The least natural number that is not below a double; `none` when there is none. -/
def ceiling? (d : Double) : Option Nat :=
  match d.parts with
  | .finite negative mantissa exponent =>
    let p := Double.powerOfTwo exponent
    some (if negative then 0 else (mantissa * p.1 + p.2 - 1) / p.2)
  | .infinite true => some 0
  | _ => none

/-- The limit that a size sets. -/
def Limit.ofValue : Value → Limit
  | .real d =>
    match ceiling? d with
    | some n => .atMost n
    | none => .unbounded
  | v =>
    match v.toInt? with
    | some n => .atMost n.toNat
    | none => .unordered

/-- The settings of a cache. -/
structure Settings where
  size : Value := .int 1024
  enabled : Value := .bool true

namespace Settings

/-- Why a cache cannot have a size. -/
inductive Error where
  | notPositive (size : Value)

/-- The text of an error. -/
def Error.message : Error → String
  | notPositive size =>
    if size.hasText then "max_entries must be positive: " ++ size.display else Fault.digitsText

/-- Check the size of a cache: it has to be a number above zero. -/
def check (s : Settings) : Outcome Error Unit :=
  match s.size with
  | .real d => if d.leInt 0 then Outcome.refuse (.notPositive s.size) else .ok ()
  | v =>
    match v.toInt? with
    | some n => if n ≤ 0 then Outcome.refuse (.notPositive s.size) else .ok ()
    | none => Outcome.fault .kind

/-- The settings in the section of a configuration. -/
def ofEntries (entries : Config.Entries) : Settings :=
  ⟨(Value.field? "max_patterns" entries).getD (.int 1024),
    (Value.field? "enabled" entries).getD (.bool true)⟩

/-- The settings of the pattern cache in a configuration. -/
def ofStore? (st : Config.Store) : Except Fault Settings :=
  (st.section? "cache").map ofEntries

end Settings

end ModulePath.Cache
