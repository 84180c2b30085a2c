import ModulePath.Number.Double
import ModulePath.Text.Order

/-!
# Data

The data that descriptors, configuration files and log contexts are made of: scalars, lists,
tuples, sets and dictionaries. A dictionary keeps its entries in order of insertion.

`Value.keyEq` says when two pieces of data are the same key of a dictionary or the same member of a
set: numbers are compared by value, and the two truth values count as one and zero. A double that is
no number is only the same as the one of the same bits.
-/

set_option autoImplicit false

namespace ModulePath

/-- A piece of data. -/
inductive Value where
  | null
  | bool (b : Bool)
  | int (n : Int)
  | real (d : Double)
  | str (s : String)
  | list (items : List Value)
  | tuple (items : List Value)
  | set (members : List Value)
  | dict (entries : List (Value × Value))
deriving Inhabited

namespace Value

/-- The name of the kind of a piece of data. -/
def kindName : Value → String
  | null => "NoneType"
  | bool _ => "bool"
  | int _ => "int"
  | real _ => "float"
  | str _ => "str"
  | list _ => "list"
  | tuple _ => "tuple"
  | set _ => "frozenset"
  | dict _ => "dict"

/-- Whether a piece of data counts as true: it does unless it is null, false, zero or empty. -/
def truthy : Value → Bool
  | null => false
  | bool b => b
  | int n => n ≠ 0
  | real d => !d.equalsInt 0
  | str s => !s.isEmpty
  | list items => !items.isEmpty
  | tuple items => !items.isEmpty
  | set members => !members.isEmpty
  | dict entries => !entries.isEmpty

/-- The integer that a truth value or an integer stands for. -/
def toInt? : Value → Option Int
  | bool b => some (if b then 1 else 0)
  | int n => some n
  | _ => none

/-- What a piece of data consists of when it is gone through: the characters of a text, the members
of a collection, the keys of a dictionary. -/
def items? : Value → Option (List Value)
  | str s => some (s.toList.map fun c => str c.toString)
  | list items => some items
  | tuple items => some items
  | set members => some members
  | dict entries => some (entries.map (·.1))
  | _ => none

/-! ## Keys -/

mutual
/-- Whether a piece of data can be a key: lists and dictionaries cannot, nor can a tuple that holds
one. -/
def hashable : Value → Bool
  | list _ => false
  | dict _ => false
  | tuple items => hashableAll items
  | _ => true
/-- Whether every member of a list can be a key. -/
def hashableAll : List Value → Bool
  | [] => true
  | v :: vs => hashable v && hashableAll vs
end

/-- Whether two numbers are equal, or the same double; `none` when one of the two is neither. -/
def numberEq? : Value → Value → Option Bool
  | real a, real b => some (a == b || a.numericEq b)
  | real a, b => b.toInt?.map a.equalsInt
  | a, real b => a.toInt?.map b.equalsInt
  | a, b => a.toInt?.bind fun m => b.toInt?.map (m == ·)

mutual
/-- Whether two pieces of data are the same key. -/
def keyEq : Value → Value → Bool
  | null, null => true
  | str a, str b => a == b
  | tuple as, tuple bs => keyEqAll as bs
  | set as, set bs => as.length == bs.length && keySubset as bs
  | a, b => (numberEq? a b).getD false
/-- Whether two lists of keys agree place by place. -/
def keyEqAll : List Value → List Value → Bool
  | [], [] => true
  | a :: as, b :: bs => keyEq a b && keyEqAll as bs
  | _, _ => false
/-- Whether every key of the first list is in the second. -/
def keySubset : List Value → List Value → Bool
  | [], _ => true
  | a :: as, bs => bs.any (keyEq a) && keySubset as bs
end

/-- The members of a list as a set: of equal members the first stays. -/
def distinct : List Value → List Value
  | [] => []
  | v :: vs => v :: (distinct vs).filter fun w => !keyEq v w

/-! ## Dictionaries -/

section

variable {α : Type}

/-- The value of a key. -/
def lookup (key : Value) (entries : List (Value × α)) : Option α :=
  (entries.find? fun e => keyEq e.1 key).map (·.2)

/-- Give a key a value: a key that is there keeps its place. -/
def put (key : Value) (value : α) : List (Value × α) → List (Value × α)
  | [] => [(key, value)]
  | e :: rest => if keyEq e.1 key then (e.1, value) :: rest else e :: put key value rest

/-- The value of a text key. -/
def field? (key : String) (entries : List (Value × α)) : Option α := lookup (str key) entries

/-- Whether a text key is there. -/
def hasField (key : String) (entries : List (Value × α)) : Bool := (field? key entries).isSome

end

/-- A dictionary from its entries, a later entry of a key giving the value. -/
def ofEntries (entries : List (Value × Value)) : Value :=
  dict (entries.foldl (fun d e => put e.1 e.2 d) [])

/-- A piece of data is a dictionary. -/
def IsDict (v : Value) : Prop := ∃ entries, v = dict entries

/-- No text stands twice as a key. -/
def DistinctTexts {α : Type} (entries : List (Value × α)) : Prop :=
  (entries.map (·.1)).Pairwise fun k k' => ∀ name, k = .str name → k' ≠ .str name

/-- No text stands twice as a key in a piece of data, if it is a dictionary, nor in the
dictionaries that are values in it. -/
inductive WellKeyed : Value → Prop
  | keyed {entries : List (Value × Value)} (hkeys : DistinctTexts entries)
    (hvalues : ∀ e ∈ entries, WellKeyed e.2) : WellKeyed (dict entries)
  | other {v : Value} (h : ¬ v.IsDict) : WellKeyed v

/-! ## Order -/

/-- Whether a number is below another; `none` when one of the two is no number. -/
def numberLt? : Value → Value → Option Bool
  | real a, real b => some (a.lt b)
  | real a, b => b.toInt?.map fun n => a.leInt n && !a.equalsInt n
  | a, real b => a.toInt?.map fun n => !b.isNaN && !b.leInt n
  | a, b => a.toInt?.bind fun m => b.toInt?.map (m < ·)

mutual
/-- Whether one piece of data comes before another; `none` when the two have no order. -/
def lt? : Value → Value → Option Bool
  | str a, str b => some (Text.before a b)
  | tuple as, tuple bs => ltItems? as bs
  | list as, list bs => ltItems? as bs
  | set as, set bs => some (as.length < bs.length && keySubset as bs)
  | a, b => numberLt? a b
/-- The order of two sequences: that of the first places at which they differ. -/
def ltItems? : List Value → List Value → Option Bool
  | [], [] => some false
  | [], _ :: _ => some true
  | _ :: _, [] => some false
  | a :: as, b :: bs => if keyEq a b then ltItems? as bs else lt? a b
end

/-- Put a value before the first member of a sorted list that does not come before it; `none` when
a member that it is compared with has no order with it. -/
def insertSorted? (v : Value) : List Value → Option (List Value)
  | [] => some [v]
  | w :: ws => do
    if ← lt? w v then return w :: (← insertSorted? v ws)
    else return v :: w :: ws

/-- The members of a list in order. Sorting does not compare all members with one another: it is
`none` only when two that are compared have no order. -/
def sort? : List Value → Option (List Value)
  | [] => some []
  | v :: vs => do insertSorted? v (← sort? vs)

/-! ## Sets -/

/-- Whether a piece of data is a number. -/
def isNumber : Value → Bool
  | bool _ | int _ | real _ => true
  | _ => false

/-- What a set of the members of a list consists of. Numbers stand in ascending order. -/
def members (items : List Value) : List Value :=
  let ms := distinct items
  if ms.all isNumber then (sort? ms).getD ms else ms

/-- A set of the members of a list. -/
def ofMembers (items : List Value) : Value := set (members items)

end Value

end ModulePath
