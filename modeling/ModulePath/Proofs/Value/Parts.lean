import ModulePath.Proofs.Value.Keys
import ModulePath.Value.Text

/-!
# Parts of data

Data whose dictionaries have only texts as keys (`StringKeys`), and data that can be written
(`hasText`): either property of a piece of data is one of its members, its entries and its fields.

Two things can be wrong with a piece of data: it cannot be written, or the keys of one of its
dictionaries have no order (`Disordered`). What is wrong with a part is wrong with the whole
(`Taints`).
-/

set_option autoImplicit false

namespace ModulePath.Value

/-- Every dictionary in a piece of data has only texts as keys. -/
inductive StringKeys : Value → Prop
  | null : StringKeys null
  | bool (b : Bool) : StringKeys (bool b)
  | int (n : Int) : StringKeys (int n)
  | real (d : Double) : StringKeys (real d)
  | str (s : String) : StringKeys (str s)
  | list (items : List Value) (h : ∀ v ∈ items, StringKeys v) : StringKeys (list items)
  | tuple (items : List Value) (h : ∀ v ∈ items, StringKeys v) : StringKeys (tuple items)
  | set (members : List Value) (h : ∀ v ∈ members, StringKeys v) : StringKeys (set members)
  | dict (entries : List (Value × Value)) (hkeys : ∀ e ∈ entries, e.1.IsText)
    (h : ∀ e ∈ entries, StringKeys e.2) : StringKeys (dict entries)

/-! ## Fields -/

section Fields

variable {α : Type} {name : String} {v : α} {entries : List (Value × α)}

/-- A field stands among the entries. -/
theorem mem_of_field?_eq_some (h : field? name entries = some v) : (.str name, v) ∈ entries := by
  obtain ⟨⟨key, w⟩, hfind, hvalue⟩ := Option.map_eq_some_iff.1 h
  have hfound : keyEq key (.str name) = true :=
    @List.find?_some _ (fun e : Value × α => keyEq e.1 (.str name)) _ _ hfind
  have hkey : key = .str name := keyEq_str_iff.1 hfound
  have hentry : (key, w) ∈ entries := List.mem_of_find?_eq_some hfind
  obtain rfl : w = v := hvalue
  rwa [hkey] at hentry

theorem field?_cons_self : field? name ((.str name, v) :: entries) = some v := by
  simp [field?, lookup, keyEq_str_iff]

end Fields

/-! ## Data that can be written -/

/-- A list can be written if each member can. -/
theorem allHaveText_iff {items : List Value} :
    allHaveText items = true ↔ ∀ v ∈ items, v.hasText = true := by
  induction items with
  | nil => simp [allHaveText]
  | cons v vs ih => rw [allHaveText, Bool.and_eq_true, ih, List.forall_mem_cons]

theorem entriesHaveText_iff {entries : List (Value × Value)} :
    entriesHaveText entries = true ↔
      ∀ e ∈ entries, e.1.hasText = true ∧ e.2.hasText = true := by
  induction entries with
  | nil => simp [entriesHaveText]
  | cons e rest ih =>
    obtain ⟨k, v⟩ := e
    rw [entriesHaveText, Bool.and_eq_true, Bool.and_eq_true, ih, List.forall_mem_cons]

/-- A text can be written. -/
theorem hasText_of_isText {v : Value} (h : v.IsText) : v.hasText = true := by
  obtain ⟨s, rfl⟩ := h
  rfl

/-- A number from the limit on cannot be written. -/
theorem hasText_int_eq_false {n : Nat} (h : unwritable ≤ n) : (int n).hasText = false := by
  rw [hasText, Int.natAbs_natCast]
  exact decide_eq_false (Nat.not_lt.2 h)

/-! ## What is wrong with data -/

/-- Somewhere in a piece of data there is a dictionary with two keys that have no order. -/
inductive Disordered : Value → Prop
  | list {items : List Value} {v : Value} (hv : v ∈ items) (h : Disordered v) :
    Disordered (list items)
  | tuple {items : List Value} {v : Value} (hv : v ∈ items) (h : Disordered v) :
    Disordered (tuple items)
  | set {members : List Value} {v : Value} (hv : v ∈ members) (h : Disordered v) :
    Disordered (set members)
  | entry {entries : List (Value × Value)} {e : Value × Value} (he : e ∈ entries)
    (h : Disordered e.2) : Disordered (dict entries)
  | keys {entries : List (Value × Value)} {k k' : Value}
    (h : [k, k'].Sublist (entries.map (·.1))) (hlt : lt? k' k = none) : Disordered (dict entries)

/-- What is wrong with one piece of data is wrong with another. -/
structure Taints (w v : Value) : Prop where
  disordered : w.Disordered → v.Disordered
  unwritable : w.hasText = false → v.hasText = false

/-- Nothing is wrong with a scalar that can be written. -/
theorem taints_null (v : Value) : null.Taints v := ⟨nofun, nofun⟩

theorem taints_bool (b : Bool) (v : Value) : (bool b).Taints v := ⟨nofun, nofun⟩

theorem allHaveText_eq_false {items : List Value} {w : Value} (hw : w ∈ items)
    (h : w.hasText = false) : allHaveText items = false := by
  refine Bool.eq_false_iff.2 fun hall => ?_
  have htext : w.hasText = true := allHaveText_iff.1 hall w hw
  rw [h] at htext
  contradiction

/-- What is wrong with a member is wrong with the list. -/
theorem taints_list {items : List Value} {w : Value} (hw : w ∈ items) : w.Taints (list items) :=
  ⟨.list hw, allHaveText_eq_false hw⟩

theorem taints_tuple {items : List Value} {w : Value} (hw : w ∈ items) : w.Taints (tuple items) :=
  ⟨.tuple hw, allHaveText_eq_false hw⟩

theorem taints_set {items : List Value} {w : Value} (hw : w ∈ items) : w.Taints (set items) :=
  ⟨.set hw, allHaveText_eq_false hw⟩

section Entries

variable {entries : List (Value × Value)} {e : Value × Value} {name : String} {v : Value}

theorem hasText_eq_false_of_key (he : e ∈ entries) (h : e.1.hasText = false) :
    (dict entries).hasText = false := by
  refine Bool.eq_false_iff.2 fun hall => ?_
  obtain ⟨hkey, -⟩ := entriesHaveText_iff.1 hall e he
  rw [h] at hkey
  contradiction

theorem taints_entry (he : e ∈ entries) : e.2.Taints (dict entries) := by
  refine ⟨.entry he, fun h => Bool.eq_false_iff.2 fun hall => ?_⟩
  obtain ⟨-, hvalue⟩ := entriesHaveText_iff.1 hall e he
  rw [h] at hvalue
  contradiction

/-- What is wrong with a field is wrong with the dictionary. -/
theorem taints_field? (h : field? name entries = some v) : v.Taints (dict entries) :=
  taints_entry (mem_of_field?_eq_some h)

/-- A field that may be left out, with a default of which the same is true. -/
theorem taints_getD_field? {default : Value} (hdefault : default.Taints (dict entries)) :
    ((field? name entries).getD default).Taints (dict entries) := by
  cases hfield : field? name entries with
  | none => exact hdefault
  | some w => exact taints_field? hfield

end Entries

end ModulePath.Value
