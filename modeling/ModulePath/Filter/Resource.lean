import ModulePath.Fault
import ModulePath.Filter.Build
import ModulePath.Value.Basic

/-!
# Filtering resources

A resource is a path, or a record with the path among its attributes. `Filter.select` goes through
resources in order and keeps those whose path is accepted, and stops as soon as it has as many as
are asked for.
-/

set_option autoImplicit false

namespace ModulePath

/-- Something that has a path. -/
inductive Resource where
  | path (p : String)
  | record (attributes : List (String × Value))

/-- The path of a resource: the resource itself or its attribute `name`. If an attribute is chosen,
that attribute of any resource. -/
def Resource.path? (chosen : Option String) : Resource → Except Fault Value
  | .path p => if chosen.isNone then .ok (.str p) else .error .missingAttribute
  | .record attributes =>
    match attributes.lookup (chosen.getD "name") with
    | some v => .ok v
    | none => .error .missingAttribute

namespace Filter

/-- What a selection has done: the resources kept, in order, and how many were looked at. -/
structure Selection (α : Type) where
  items : List α
  consumed : Nat

section

variable {α ε : Type}

/-- Select the accepted ones of `resources`, at most `limit` of them if there is a limit. -/
def select (accept : α → Except ε Bool) (limit : Option Nat) : List α → Except ε (Selection α)
  | [] => .ok ⟨[], 0⟩
  | r :: rs =>
    if limit = some 0 then .ok ⟨[], 0⟩
    else do
      if ← accept r then
        let s ← select accept (limit.map (· - 1)) rs
        return ⟨r :: s.items, s.consumed + 1⟩
      else
        let s ← select accept limit rs
        return ⟨s.items, s.consumed + 1⟩

end

end Filter

/-! ## Classes -/

/-- The path of the resource that a class is loaded from. -/
def classPath (className : String) : String :=
  String.ofList (className.toList.map fun c => if c = '.' then '/' else c) ++ ".class"

/-- A filter of class names. -/
inductive ClassFilter where
  /-- The same answer for every class. -/
  | const (answer : Bool)
  /-- The classes whose resource a path filter accepts. -/
  | ofPath (filter : Filter)

namespace ClassFilter

/-- Whether a class is accepted. -/
def accepts (className : String) : ClassFilter → Bool
  | const answer => answer
  | ofPath filter => filter.accepts (classPath className)

/-- A class filter in reports. -/
def text : ClassFilter → String
  | const answer => (Filter.const answer).text
  | ofPath filter => "classes of " ++ filter.text

/-- The class filter of a path filter. -/
def ofFilter (f : Filter) : ClassFilter :=
  if f.same Filter.acceptAll then const true else ofPath f

end ClassFilter

end ModulePath
