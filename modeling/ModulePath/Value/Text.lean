import ModulePath.Number.Shortest
import ModulePath.Text.Quoted
import ModulePath.Value.Basic

/-!
# The text of data

`Value.quote` writes a piece of data the way messages quote it, `Value.display` the way they insert
it: the same, but that a text stands as it is.
-/

set_option autoImplicit false

namespace ModulePath.Value

/-- Texts with a comma and a blank between neighbours. -/
def commaSeparated (parts : List String) : String := String.intercalate ", " parts

mutual
/-- A piece of data as messages quote it. -/
def quote : Value → String
  | null => "None"
  | bool b => if b then "True" else "False"
  | int n => toString n
  | real d => d.text
  | str s => Text.quoted s
  | list items => "[" ++ commaSeparated (quoteAll items) ++ "]"
  | tuple [] => "()"
  | tuple [v] => "(" ++ quote v ++ ",)"
  | tuple items => "(" ++ commaSeparated (quoteAll items) ++ ")"
  | set [] => "frozenset()"
  | set members => "frozenset(\x7b" ++ commaSeparated (quoteAll members) ++ "\x7d)"
  | dict entries => "\x7b" ++ commaSeparated (quoteEntries entries) ++ "\x7d"
/-- The members of a list as messages quote them. -/
def quoteAll : List Value → List String
  | [] => []
  | v :: vs => quote v :: quoteAll vs
/-- The entries of a dictionary as messages quote them. -/
def quoteEntries : List (Value × Value) → List String
  | [] => []
  | (k, v) :: rest => (quote k ++ ": " ++ quote v) :: quoteEntries rest
end

/-- The least natural number that is too long to be written: it has 4301 digits. -/
def unwritable : Nat := Nat.pow 10 4300

mutual
/-- Whether a piece of data can be written; one with too long a number cannot. -/
def hasText : Value → Bool
  | int n => n.natAbs < unwritable
  | list items | tuple items | set items => allHaveText items
  | dict entries => entriesHaveText entries
  | _ => true
/-- Whether the members of a list can be written. -/
def allHaveText : List Value → Bool
  | [] => true
  | v :: vs => hasText v && allHaveText vs
/-- Whether the entries of a dictionary can be written. -/
def entriesHaveText : List (Value × Value) → Bool
  | [] => true
  | (k, v) :: rest => hasText k && hasText v && entriesHaveText rest
end

/-- A piece of data as messages insert it. -/
def display : Value → String
  | str s => s
  | v => v.quote

end ModulePath.Value
