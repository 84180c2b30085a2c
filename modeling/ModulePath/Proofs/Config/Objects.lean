import ModulePath.Config.Objects
import ModulePath.Proofs.Config.Beside

/-!
# The data that stand in memory

A cell stands for a piece of data (`Heap.Reads`), and the dictionaries that it holds, at any depth,
are those that the data depend on (`Heap.Contains`): where these are as they were, the cell stands
for the same data (`Reads.of_agree`). No dictionary that stands for data holds itself
(`Reads.not_contains_entry`). Following a path from a cell and in its data leads to the same
(`Reads.cellAt?`).
-/

set_option autoImplicit false

namespace ModulePath.Config

open Value (field?)

/-- The entries of a dictionary in memory beside those of the data that it stands for: each key with
what stands under it and what that stands for. -/
abbrev Rows := List (Value × Cell × Value)

namespace Rows

/-- The entries in memory. -/
def cells (rows : Rows) : Object := rows.map fun r => (r.1, r.2.1)

/-- The entries of the data. -/
def values (rows : Rows) : Entries := rows.map fun r => (r.1, r.2.2)

variable {key : Value} {name : String} {c : Cell} {v : Value} {rows : Rows}

theorem cells_put : cells (Value.put key (c, v) rows) = Value.put key c rows.cells :=
  (Value.put_map (Prod.fst : Cell × Value → Cell)).symm

theorem values_put : values (Value.put key (c, v) rows) = Value.put key v rows.values :=
  (Value.put_map (Prod.snd : Cell × Value → Value)).symm

theorem field?_cells : field? name rows.cells = (field? name rows).map (·.1) := Value.field?_map _

theorem field?_values : field? name rows.values = (field? name rows).map (·.2) := Value.field?_map _

theorem distinctTexts_iff : Value.DistinctTexts rows.values ↔ Value.DistinctTexts rows := by
  unfold Value.DistinctTexts values
  rw [List.map_map]
  rfl

end Rows

namespace Heap

/-- What a cell stands for: a dictionary for its entries, as far as they go. -/
inductive Reads (h : Heap) : Cell → Value → Prop
  | atom (a : Atom) : Reads h (.atom a) a.1
  | list (pairs : List (Cell × Value)) (hpairs : ∀ p ∈ pairs, Reads h p.1 p.2) :
    Reads h (.list (pairs.map (·.1))) (.list (pairs.map (·.2)))
  | tuple (pairs : List (Cell × Value)) (hpairs : ∀ p ∈ pairs, Reads h p.1 p.2) :
    Reads h (.tuple (pairs.map (·.1))) (.tuple (pairs.map (·.2)))
  | dict {n : Nat} (rows : Rows) (hobject : h.object? n = some rows.cells)
    (hrows : ∀ r ∈ rows, Reads h r.2.1 r.2.2) : Reads h (.dict n) (.dict rows.values)

/-- A dictionary is a cell, or it stands in it at some depth. -/
inductive Contains (h : Heap) (n : Nat) : Cell → Prop
  | here : Contains h n (.dict n)
  | list {items : List Cell} {c : Cell} (hc : c ∈ items) (hn : Contains h n c) :
    Contains h n (.list items)
  | tuple {items : List Cell} {c : Cell} (hc : c ∈ items) (hn : Contains h n c) :
    Contains h n (.tuple items)
  | entry {k : Nat} {o : Object} {e : Value × Cell} (hobject : h.object? k = some o) (he : e ∈ o)
    (hn : Contains h n e.2) : Contains h n (.dict k)

variable {h h' : Heap} {c x : Cell} {v w : Value} {n k : Nat} {o : Object} {part : String}
  {parts : List String} {entries : Entries}

/-! ## Objects -/

/-- A write in one dictionary changes this one and no other. -/
theorem object?_put (h : Heap) (n : Nat) (part : String) (c : Cell) (k : Nat) :
    (h.put n part c).object? k =
      (h.object? k).map fun o => if n = k then Value.put (.str part) c o else o := by
  rw [object?, put, List.getElem?_modify]
  rfl

theorem object?_put_self (hobject : h.object? n = some o) (part : String) (c : Cell) :
    (h.put n part c).object? n = some (Value.put (.str part) c o) := by
  rw [object?_put, hobject, Option.map_some, if_pos rfl]

theorem object?_put_of_ne (hne : n ≠ k) (part : String) (c : Cell) :
    (h.put n part c).object? k = h.object? k := by
  rw [object?_put]
  simp only [if_neg hne, Option.map_id_fun', id_eq]

/-- The number of a new dictionary is that of none before. -/
theorem object?_add_self (h : Heap) : h.object? (h.add o).1 = none :=
  List.getElem?_eq_none (Nat.le_refl _)

/-- A new dictionary is there. -/
theorem object?_add (h : Heap) (o : Object) : (h.add o).2.object? (h.add o).1 = some o :=
  List.getElem?_concat_length

/-- A new dictionary leaves the others as they are. -/
theorem object?_add_of_some {o' : Object} (hobject : h.object? k = some o') (o : Object) :
    (h.add o).2.object? k = some o' := by
  obtain ⟨hlt, -⟩ := List.getElem?_eq_some_iff.1 hobject
  exact (List.getElem?_append_left hlt).trans hobject

/-! ## Cells and their data -/

/-- A dictionary reads as the values of its rows. -/
theorem reads_dict_iff : h.Reads (.dict n) v ↔ ∃ rows : Rows, h.object? n = some rows.cells ∧
    v = .dict rows.values ∧ ∀ r ∈ rows, h.Reads r.2.1 r.2.2 := by
  constructor
  · intro hread
    cases hread with
    | dict rows hobject hrows => exact ⟨rows, hobject, rfl, hrows⟩
  · rintro ⟨rows, hobject, rfl, hrows⟩
    exact .dict rows hobject hrows

theorem Reads.exists_dict (hread : h.Reads c (.dict entries)) : ∃ n, c = .dict n := by
  generalize hv : Value.dict entries = v at hread
  cases hread with
  | atom a =>
    have hatom := a.2
    rw [← hv] at hatom
    cases hatom
  | list | tuple => cases hv
  | dict => exact ⟨_, rfl⟩

/-- The data depend only on the dictionaries that the cell holds. -/
theorem Reads.of_agree (hread : h.Reads c v)
    (hagree : ∀ k o, h.Contains k c → h.object? k = some o → h'.object? k = some o) :
    h'.Reads c v := by
  induction hread with
  | atom a => exact .atom a
  | list pairs _ ih =>
    exact .list pairs fun p hp =>
      ih p hp fun k o hk => hagree k o (.list (List.mem_map_of_mem hp) hk)
  | tuple pairs _ ih =>
    exact .tuple pairs fun p hp =>
      ih p hp fun k o hk => hagree k o (.tuple (List.mem_map_of_mem hp) hk)
  | dict rows hobject _ ih =>
    refine .dict rows (hagree _ _ .here hobject) fun r hr => ih r hr fun k o hk => ?_
    have hentry : (r.1, r.2.1) ∈ rows.cells := List.mem_map_of_mem hr
    exact hagree k o (.entry hobject hentry hk)

/-- What stands for data does not go round in circles. The induction is on the data: if an entry of
a dictionary held the dictionary, this would hold itself below that entry already. -/
theorem Reads.not_contains_entry (hread : h.Reads c v) (hn : h.Contains n c)
    (hobject : h.object? n = some o) : ∀ e ∈ o, ¬ h.Contains n e.2 := by
  induction hread with
  | atom a => cases hn
  | list pairs _ ih =>
    cases hn with
    | list hc hn =>
      obtain ⟨p, hp, rfl⟩ := List.mem_map.1 hc
      exact ih p hp hn
  | tuple pairs _ ih =>
    cases hn with
    | tuple hc hn =>
      obtain ⟨p, hp, rfl⟩ := List.mem_map.1 hc
      exact ih p hp hn
  | dict rows hrows _ ih =>
    cases hn with
    | here =>
      obtain rfl := Option.some.inj (hrows.symm.trans hobject)
      -- an entry that holds the dictionary would make the data below it hold themselves
      intro e he hcycle
      obtain ⟨r, hr, rfl⟩ := List.mem_map.1 he
      exact ih r hr hcycle _ he hcycle
    | entry hobject' he hn =>
      obtain rfl := Option.some.inj (hrows.symm.trans hobject')
      obtain ⟨r, hr, rfl⟩ := List.mem_map.1 he
      exact ih r hr hn

/-! ## Paths -/

/-- A path is followed dictionary by dictionary. -/
theorem cellAt?_dict_cons : h.cellAt? (.dict n) (part :: parts) =
    (h.under? n part).bind fun below => h.cellAt? below parts := rfl

/-- A path from a cell leads to what stands for the data that it leads to in the data of the
cell. -/
theorem Reads.cellAt? (hread : h.Reads c v) (parts : List String) :
    Option.Rel h.Reads (h.cellAt? c parts) (valueAt? v parts) := by
  induction parts generalizing c v with
  | nil => exact .some hread
  | cons part rest ih =>
    cases hread with
    | atom a =>
      have hnone : valueAt? a.1 (part :: rest) = none := by
        apply valueAt?_cons_of_not_isDict
        rintro ⟨entries, h⟩
        have hatom := a.2
        rw [h] at hatom
        cases hatom
      rw [hnone]
      exact .none
    | list | tuple => exact .none
    | dict rows hobject hrows =>
      rw [cellAt?_dict_cons, under?, hobject, Option.bind_some, valueAt?_dict_cons,
        Rows.field?_cells, Rows.field?_values]
      cases hfield : field? part rows with
      | none => exact .none
      | some r => exact ih (hrows _ (Value.mem_of_field?_eq_some hfield))

/-! ## Copies -/

/-- The dictionaries of one heap are in another one as they are. -/
def Extends (h h' : Heap) : Prop := ∀ k o, h.object? k = some o → h'.object? k = some o

theorem Extends.trans {h'' : Heap} (hfirst : Extends h h') (hsecond : Extends h' h'') :
    Extends h h'' := fun k o hk => hsecond k o (hfirst k o hk)

/-- A new dictionary extends the heap. -/
theorem extends_add (h : Heap) (o : Object) : Extends h (h.add o).2 :=
  fun _ _ hk => object?_add_of_some hk o

/-- What stands for data goes on to do so when the heap grows. -/
theorem Reads.of_extends (hread : h.Reads c v) (hextends : Extends h h') : h'.Reads c v :=
  hread.of_agree fun k o _ => hextends k o

mutual
/-- Data that are copied stand in the heap, which has grown. The induction is on the data, and along
with it on their members and entries. -/
theorem enter_spec : ∀ (v : Value) (h : Heap),
    Extends h (h.enter v).2 ∧ (h.enter v).2.Reads (h.enter v).1 v
  | .list items, h => by
    obtain ⟨hextends, pairs, hcells, rfl, hpairs⟩ := enterAll_spec items h
    refine ⟨hextends, ?_⟩
    change Heap.Reads _ (.list (h.enterAll _).1) _
    rw [hcells]
    exact .list pairs hpairs
  | .tuple items, h => by
    obtain ⟨hextends, pairs, hcells, rfl, hpairs⟩ := enterAll_spec items h
    refine ⟨hextends, ?_⟩
    change Heap.Reads _ (.tuple (h.enterAll _).1) _
    rw [hcells]
    exact .tuple pairs hpairs
  | .dict entries, h => by
    obtain ⟨hextends, rows, hcells, rfl, hrows⟩ := enterEntries_spec entries h
    refine ⟨hextends.trans (extends_add _ _), ?_⟩
    refine .dict rows ((object?_add _ _).trans (congrArg some hcells)) fun r hr => ?_
    exact (hrows r hr).of_extends (extends_add _ _)
  | .null, _ => ⟨fun _ _ hk => hk, .atom _⟩
  | .bool _, _ => ⟨fun _ _ hk => hk, .atom _⟩
  | .int _, _ => ⟨fun _ _ hk => hk, .atom _⟩
  | .real _, _ => ⟨fun _ _ hk => hk, .atom _⟩
  | .str _, _ => ⟨fun _ _ hk => hk, .atom _⟩
  | .set _, _ => ⟨fun _ _ hk => hk, .atom _⟩
/-- Entered values read as themselves, and what was there is still there. -/
theorem enterAll_spec : ∀ (vs : List Value) (h : Heap), Extends h (h.enterAll vs).2 ∧
    ∃ pairs : List (Cell × Value), (h.enterAll vs).1 = pairs.map (·.1) ∧ vs = pairs.map (·.2) ∧
      ∀ p ∈ pairs, (h.enterAll vs).2.Reads p.1 p.2
  | [], _ => ⟨fun _ _ hk => hk, [], rfl, rfl, List.forall_mem_nil _⟩
  | v :: vs, h => by
    obtain ⟨hfirst, hread⟩ := enter_spec v h
    obtain ⟨hrest, pairs, hcells, hvalues, hpairs⟩ := enterAll_spec vs (h.enter v).2
    refine ⟨hfirst.trans hrest, ((h.enter v).1, v) :: pairs, ?_,
      by rw [List.map_cons, ← hvalues], ?_⟩
    · rw [List.map_cons, ← hcells]
      rfl
    · exact List.forall_mem_cons.2 ⟨hread.of_extends hrest, hpairs⟩
/-- Entered rows read as themselves, and what was there is still there. -/
theorem enterEntries_spec : ∀ (entries : List (Value × Value)) (h : Heap),
    Extends h (h.enterEntries entries).2 ∧ ∃ rows : Rows, (h.enterEntries entries).1 = rows.cells ∧
      entries = rows.values ∧ ∀ r ∈ rows, (h.enterEntries entries).2.Reads r.2.1 r.2.2
  | [], _ => ⟨fun _ _ hk => hk, [], rfl, rfl, List.forall_mem_nil _⟩
  | (key, v) :: rest, h => by
    obtain ⟨hfirst, hread⟩ := enter_spec v h
    obtain ⟨hrest, rows, hcells, hvalues, hrows⟩ := enterEntries_spec rest (h.enter v).2
    refine ⟨hfirst.trans hrest, (key, (h.enter v).1, v) :: rows, ?_, ?_, ?_⟩
    · change (key, (h.enter v).1) :: ((h.enter v).2.enterEntries rest).1 = _
      rw [hcells]
      rfl
    · rw [hvalues]
      rfl
    · exact List.forall_mem_cons.2 ⟨hread.of_extends hrest, hrows⟩
end

end Heap

end ModulePath.Config
