import ModulePath.Filter.Checked
import ModulePath.Filter.Resource

/-!
# Filters and loose data

A filter can be asked about any piece of data. Most filters answer by what the data is; those that
look into a path fault on data of another kind, and they fault only when they are asked. Data in the
place of a filter has a text, but no answer.
-/

set_option autoImplicit false

namespace ModulePath

namespace Filter

/-! ## Asking about data -/

/-- Whether data go on after `parent`: a collection that is longer has no beginning to compare. -/
def isChildValue? (parent : String) : Value → Except Fault Bool
  | .str path => .ok (isChild parent path)
  | .dict entries => longer entries.length
  | .list items | .tuple items | .set items => longer items.length
  | _ => .error .kind
where
  /-- A collection of `size` members. -/
  longer (size : Nat) : Except Fault Bool :=
    if parent.length < size then .error .missingAttribute else .ok false

/-- Whether data are a member of a set of texts. Data that cannot be a key cannot be looked up. -/
def isMember? (paths : TextSet) : Value → Except Fault Bool
  | .str path => .ok (paths.contains path)
  | v => if v.hashable then .ok false else .error .kind

mutual
/-- Whether a filter accepts data. -/
def acceptsValue? (v : Value) : Filter → Except Fault Bool
  | const answer => .ok answer
  | equals p => .ok (Value.keyEq v (.str p))
  | children parent => isChildValue? parent v
  | members paths => isMember? paths v
  | glob pattern =>
    match v with
    | .str path => .ok ((Glob.Pattern.ofGlob pattern).accepts path)
    | _ => .error .kind
  | inverse delegate => (acceptsValue? v delegate).map (!·)
  | aggregate mode delegates => decideFirst? v mode.dominant delegates
  | rules rs default => firstRule? v rs default
  | probe _ answer => .ok answer
/-- The dominant answer if one of the filters gives it, otherwise its opposite. -/
def decideFirst? (v : Value) (dominant : Bool) : List Filter → Except Fault Bool
  | [] => .ok !dominant
  | f :: fs => do
    if (← acceptsValue? v f) == dominant then return dominant else decideFirst? v dominant fs
/-- The answer of the first rule that applies. -/
def firstRule? (v : Value) : List (Filter × Bool) → Bool → Except Fault Bool
  | [], default => .ok default
  | (f, answer) :: rs, default => do
    if ← acceptsValue? v f then return answer else firstRule? v rs default
end

/-! ## Data as filters -/

namespace Operand

/-- A filter, or data in its place, in reports. -/
def text : Operand → String
  | filter f => f.text
  | value v => v.display

/-- Whether what stands in the place of a filter accepts a path. -/
def accepts? (path : String) : Operand → Except Fault Bool
  | filter f => .ok (f.accepts path)
  | value _ => .error .missingAttribute

/-- Whether what stands in the place of a filter accepts data. -/
def acceptsValue? (v : Value) : Operand → Except Fault Bool
  | filter f => f.acceptsValue? v
  | value _ => .error .missingAttribute

/-- Whether two things in the place of filters are equal: filters as filters, data as keys. -/
def same : Operand → Operand → Bool
  | filter f, filter g => f.same g
  | value v, value w => Value.keyEq v w
  | _, _ => false

/-- Whether something in the place of a filter can be a key. Every filter can. -/
def hashable : Operand → Bool
  | filter _ => true
  | value v => v.hashable

end Operand

/-! ## Selection -/

/-- Whether a filter accepts the path of a resource. -/
def acceptsResource (chosen : Option String) (f : Operand) (r : Resource) :
    Outcome Error Bool := do
  let path ← (r.path? chosen).mapError .fault
  (f.acceptsValue? path).mapError .fault

/-- Select the resources that a filter accepts. A missing filter is refused as soon as anything is
asked for. -/
def selectResources (f : Operand) (chosen : Option String) (limit : Option Nat)
    (resources : List Resource) : Outcome Error (Selection Resource) :=
  match limit, f with
  | some 0, _ => .ok ⟨[], 0⟩
  | _, .value .null => Outcome.refuse (.missing "filter")
  | _, _ => select (acceptsResource chosen f) limit resources

end Filter

/-! ## Classes -/

/-- A class filter, or one that was made of data in the place of a path filter. -/
inductive ClassFilter.Operand where
  | filter (c : ClassFilter)
  | value (v : Value)

namespace ClassFilter.Operand

/-- The class filter of an argument. -/
def ofOperand? : Filter.Operand → Outcome Filter.Error Operand
  | .filter f => .ok (filter (ofFilter f))
  | .value .null => Outcome.refuse (.missing "filter")
  | .value v => .ok (value v)

/-- A class filter in reports. -/
def text : Operand → String
  | filter c => c.text
  | value v => "classes of " ++ v.display

/-- Whether a class is accepted. -/
def accepts? (className : String) : Operand → Except Fault Bool
  | filter c => .ok (c.accepts className)
  | value _ => .error .missingAttribute

end ClassFilter.Operand

end ModulePath
