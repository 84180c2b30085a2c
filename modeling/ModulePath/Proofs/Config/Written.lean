import ModulePath.Proofs.Config.Objects

/-!
# Writes in memory

A write in memory walks along a path and gives one dictionary another entry (`Heap.Written`). It
stops where the assignment in the data fails, and then leaves the memory as it is
(`Heap.Reads.write`). If the dictionary that it goes into stands nowhere beside the path, the cell
that the path begins at stands afterwards for what the assignment makes of its data.
-/

set_option autoImplicit false

namespace ModulePath.Config

open Value (field?)

namespace Heap

/-- The dictionary that a write along a path goes into: the last one on the way that is there. -/
def target? (h : Heap) : Cell → List String → Option Nat
  | .dict n, [_] => some n
  | .dict n, part :: next :: rest =>
    match h.under? n part with
    | some below => h.target? below (next :: rest)
    | none => some n
  | _, _ => none

/-- A dictionary stands nowhere beside the way along a path: of the entries of a dictionary on the
way, only the one that the way goes through may hold it. -/
def OnlyAlong (h : Heap) (n : Nat) (c : Cell) (path : List String) : Prop :=
  ∀ above part below, path = above ++ part :: below →
    ∀ k o, h.cellAt? c above = some (.dict k) → h.object? k = some o →
      ∀ e ∈ o, e.1 ≠ .str part → ¬ h.Contains n e.2

/-- What a write along a path leaves: another entry in one dictionary, with what was written at the
end of the path. If this dictionary stands nowhere else, the cell that the path begins at stands for
data that have changed in the same way. -/
structure Written (h h' : Heap) (n : Nat) (c x : Cell) (path : List String) (u w : Value) :
    Prop where
  target : h.target? c path = some n
  others : ∀ k o, k ≠ n → h.object? k = some o → h'.object? k = some o
  found : h'.cellAt? c path = some x
  reads : h.OnlyAlong n c path → h'.Reads x u → h'.Reads c w

variable {h h' : Heap} {c x new : Cell} {u v w : Value} {n k : Nat} {o : Object} {part : String}
  {parts : List String} {rows : Rows}

/-- A dictionary that stands only along a path is not contained in what stands beside it. -/
theorem OnlyAlong.entry (honly : h.OnlyAlong n (.dict k) (part :: parts))
    (hobject : h.object? k = some o) : ∀ e ∈ o, e.1 ≠ .str part → ¬ h.Contains n e.2 :=
  honly [] part parts rfl k o rfl hobject

/-- What stands only along a path stands only along the rest of it. -/
theorem OnlyAlong.below (honly : h.OnlyAlong n (.dict k) (part :: parts))
    (hentry : h.under? k part = some c) : h.OnlyAlong n c parts := by
  rintro above next below rfl k' o' hpath
  refine honly (part :: above) next below rfl k' o' ?_
  rw [cellAt?_dict_cons, hentry]
  exact hpath

theorem onlyAlong_cons (hobject : h.object? k = some o)
    (hbeside : ∀ e ∈ o, e.1 ≠ .str part → ¬ h.Contains n e.2)
    (hbelow : ∀ c, h.under? k part = some c → h.OnlyAlong n c parts) :
    h.OnlyAlong n (.dict k) (part :: parts) := by
  intro above next below hpath k' o' hcell ho'
  cases above with
  | nil =>
    obtain ⟨rfl, -⟩ := List.cons.inj hpath
    obtain rfl : k = k' := Cell.dict.inj (Option.some.inj hcell)
    obtain rfl := Option.some.inj (hobject.symm.trans ho')
    exact hbeside
  | cons first above =>
    obtain ⟨rfl, hrest⟩ := List.cons.inj hpath
    obtain ⟨c, hentry, hcell⟩ := Option.bind_eq_some_iff.1 hcell
    exact hbelow c hentry above next below hrest k' o' hcell ho'

/-- Along a path from an empty dictionary there is nothing else. -/
theorem onlyAlong_of_empty (hobject : h.object? k = some []) (n : Nat) (part : String)
    (parts : List String) : h.OnlyAlong n (.dict k) (part :: parts) := by
  refine onlyAlong_cons hobject (List.forall_mem_nil _) fun c hentry => ?_
  rw [under?, hobject] at hentry
  cases hentry

/-- The dictionary that a write changes is contained in what it begins at. -/
theorem contains_of_target? (htarget : h.target? c parts = some n) : h.Contains n c := by
  induction parts generalizing c with
  | nil => cases c <;> cases htarget
  | cons part rest ih =>
    cases c with
    | atom | list | tuple => cases rest <;> cases htarget
    | dict k =>
      cases rest with
      | nil =>
        obtain rfl := Option.some.inj htarget
        exact .here
      | cons next rest =>
        -- the write goes into this dictionary or into one below it
        rw [target?] at htarget
        split at htarget
        case h_1 below hentry =>
          obtain ⟨o, hobject, hfield⟩ := Option.bind_eq_some_iff.1 hentry
          exact .entry hobject (Value.mem_of_field?_eq_some hfield) (ih htarget)
        case h_2 =>
          obtain rfl := Option.some.inj htarget
          exact .here

/-- A write from an empty dictionary goes into it. -/
theorem target?_of_empty (hobject : h.object? k = some []) (part : String) (parts : List String) :
    h.target? (.dict k) (part :: parts) = some k := by
  cases parts with
  | nil => rfl
  | cons =>
    have hentry : h.under? k part = none := by rw [under?, hobject]; rfl
    rw [target?, hentry]

/-- A dictionary that gets another entry stands for the data with that entry. -/
theorem reads_of_put (hrows : ∀ r ∈ rows, h.Reads r.2.1 r.2.2)
    (hobject : h.object? n = some rows.cells)
    (hobject' : h'.object? n = some (Value.put (.str part) new rows.cells))
    (hothers : ∀ k o, k ≠ n → h.object? k = some o → h'.object? k = some o)
    (hnew : h'.Reads new u) : h'.Reads (.dict n) (.dict (Value.put (.str part) u rows.values)) := by
  rw [← Rows.values_put (c := new)]
  refine .dict _ (by rw [Rows.cells_put]; exact hobject') fun r hr => ?_
  rcases Value.mem_put hr with hr | hr
  · rw [hr]
    exact hnew
  · -- no entry holds the dictionary itself, so those that were there stand for what they did
    refine (hrows r hr).of_agree fun k o hk => hothers k o ?_
    rintro rfl
    have hself : h.Reads (.dict k) (.dict rows.values) := .dict rows hobject hrows
    exact hself.not_contains_entry .here hobject (r.1, r.2.1) (List.mem_map_of_mem hr) hk

/-- What stands under a key is the cell of its row. -/
theorem under?_eq (hobject : h.object? n = some rows.cells) :
    h.under? n part = (field? part rows).map (·.1) := by
  rw [under?, hobject, Option.bind_some, Rows.field?_cells]

/-- A write into a dictionary that is there. -/
theorem written_put (hrows : ∀ r ∈ rows, h.Reads r.2.1 r.2.2)
    (hobject : h.object? n = some rows.cells)
    (x : Cell) (u : Value) (part : String) :
    Written h (h.put n part x) n (.dict n) x [part] u
      (.dict (Value.put (.str part) u rows.values)) where
  target := rfl
  others k o hne hk := by rw [object?_put_of_ne hne.symm, hk]
  found := by
    rw [cellAt?_dict_cons, under?, object?_put_self hobject, Option.bind_some,
      Value.field?_put_self]
    rfl
  reads _ hx := by
    refine reads_of_put hrows hobject (object?_put_self hobject part x) (fun k o hne hk => ?_) hx
    rw [object?_put_of_ne hne.symm, hk]

/-- A write that goes on in a dictionary that is there. -/
theorem Written.entry (hrows : ∀ r ∈ rows, h.Reads r.2.1 r.2.2)
    (hobject : h.object? k = some rows.cells) (hkeys : Value.DistinctTexts rows) {r : Cell × Value}
    (hfield : field? part rows = some r) {next : String}
    (hwritten : Written h h' n r.1 x (next :: parts) u w) :
    Written h h' n (.dict k) x (part :: next :: parts) u
      (.dict (Value.put (.str part) w rows.values)) := by
  have hread : h.Reads (.dict k) (.dict rows.values) := .dict rows hobject hrows
  have hentry : h.under? k part = some r.1 := by rw [under?_eq hobject, hfield, Option.map_some]
  have hbelow : (Value.str part, r.1) ∈ rows.cells :=
    List.mem_map_of_mem (Value.mem_of_field?_eq_some hfield)
  -- the dictionary stands below this one, which is therefore another one
  have hne : k ≠ n := by
    rintro rfl
    exact hread.not_contains_entry .here hobject _ hbelow (contains_of_target? hwritten.target)
  have hobject' : h'.object? k = some rows.cells := hwritten.others k _ hne hobject
  refine ⟨?_, hwritten.others, ?_, fun honly hx => ?_⟩
  · rw [target?, hentry]
    exact hwritten.target
  · rw [cellAt?_dict_cons, under?_eq hobject', hfield]
    exact hwritten.found
  · have hsame : rows.cells = Rows.cells (Value.put (.str part) (r.1, w) rows) := by
      have hcell : field? part rows.cells = some r.1 := by
        rw [Rows.field?_cells, hfield, Option.map_some]
      rw [Rows.cells_put, Value.put_of_field? hcell]
    rw [← Rows.values_put (c := r.1)]
    refine .dict _ (hobject'.trans (congrArg some hsame)) fun row hrow => ?_
    rcases Value.mem_put_of_distinctTexts hkeys hrow with hrow | ⟨hrow, hother⟩
    · rw [hrow]
      exact hwritten.reads (honly.below hentry) hx
    · -- beside the way nothing holds the dictionary
      refine (hrows row hrow).of_agree fun j o hj => hwritten.others j o ?_
      rintro rfl
      exact honly.entry hobject (row.1, row.2.1) (List.mem_map_of_mem hrow) hother hj

/-- A write that makes a dictionary and goes on in it. -/
theorem Written.made (hrows : ∀ r ∈ rows, h.Reads r.2.1 r.2.2)
    (hobject : h.object? k = some rows.cells)
    (hfield : field? part rows = none) {next : String}
    (hwritten : Written ((h.add []).2.put k part (.dict (h.add []).1)) h' n (.dict (h.add []).1) x
      (next :: parts) u w) :
    Written h h' k (.dict k) x (part :: next :: parts) u
      (.dict (Value.put (.str part) w rows.values)) := by
  generalize hnew : (h.add []).1 = fresh at hwritten
  have hfresh : h.object? fresh = none := hnew ▸ object?_add_self h
  have hold {j : Nat} {o : Object} (hj : h.object? j = some o) : j ≠ fresh := by
    rintro rfl
    rw [hfresh] at hj
    cases hj
  have hadded : (h.add []).2.object? fresh = some [] := hnew ▸ object?_add h []
  -- the new dictionary is empty, so the write goes into it
  have hempty : ((h.add []).2.put k part (.dict fresh)).object? fresh = some [] := by
    rw [object?_put_of_ne (hold hobject), hadded]
  obtain rfl : fresh = n :=
    Option.some.inj ((target?_of_empty hempty next parts).symm.trans hwritten.target)
  have hput : h'.object? k = some (Value.put (.str part) (.dict fresh) rows.cells) := by
    refine hwritten.others k _ (hold hobject) ?_
    exact object?_put_self (object?_add_of_some hobject []) part (.dict fresh)
  have hothers : ∀ j o, j ≠ k → h.object? j = some o → h'.object? j = some o := by
    intro j o hne hj
    refine hwritten.others j o (hold hj) ?_
    rw [object?_put_of_ne hne.symm, object?_add_of_some hj]
  refine ⟨?_, hothers, ?_, fun _ hx => ?_⟩
  · rw [target?, under?_eq hobject, hfield]
    rfl
  · rw [cellAt?_dict_cons, under?, hput, Option.bind_some, Value.field?_put_self]
    exact hwritten.found
  · have honly := onlyAlong_of_empty hempty fresh next parts
    exact reads_of_put hrows hobject hput hothers (hwritten.reads honly hx)

/-- A write goes on in the dictionary under the first part, which is made where none is. -/
theorem write_cons_cons {next : String} : h.write x (part :: next :: parts) (.dict n) =
    match h.under? n part with
    | some below => h.write x (next :: parts) below
    | none => Heap.write x (next :: parts) (.dict (h.add []).1)
        ((h.add []).2.put n part (.dict (h.add []).1)) := rfl

/-- Nothing can be assigned below what is no dictionary, and nothing can be written there. -/
theorem write_of_not_isDict (hread : h.Reads c v) (hv : ¬ v.IsDict) (x : Cell) (u : Value)
    (part : String) (parts : List String) :
    ∃ f, assign u (part :: parts) v = .error f ∧ h.write x (part :: parts) c = (h, some f) := by
  cases hread with
  | atom a =>
    obtain ⟨v, hatom⟩ := a
    cases parts <;> cases v <;> first | exact ⟨_, rfl, rfl⟩ | cases hatom
  | list | tuple => cases parts <;> exact ⟨_, rfl, rfl⟩
  | dict rows => exact absurd ⟨_, rfl⟩ hv

/-- A write does in memory what an assignment does in the data, and stops where that fails. The
induction is on the path, for all heaps at once: a dictionary that is missing is made before the
write goes on in it. -/
theorem Reads.write (hread : h.Reads c v) (hkeys : v.WellKeyed) (x : Cell) (u : Value)
    (part : String) (parts : List String) :
    (∃ f, assign u (part :: parts) v = .error f ∧ h.write x (part :: parts) c = (h, some f)) ∨
      ∃ w h' n, assign u (part :: parts) v = .ok w ∧ h.write x (part :: parts) c = (h', none) ∧
        Written h h' n c x (part :: parts) u w := by
  induction parts generalizing part c v h with
  | nil =>
    by_cases hdict : v.IsDict
    case neg => exact .inl (write_of_not_isDict hread hdict x u part [])
    case pos =>
      obtain ⟨entries, rfl⟩ := hdict
      obtain ⟨n, rfl⟩ := hread.exists_dict
      obtain ⟨rows, hobject, hvalues, hrows⟩ := reads_dict_iff.1 hread
      obtain rfl := Value.dict.inj hvalues
      exact .inr ⟨_, _, n, rfl, rfl, written_put hrows hobject x u part⟩
  | cons next rest ih =>
    by_cases hdict : v.IsDict
    case neg => exact .inl (write_of_not_isDict hread hdict x u part (next :: rest))
    case pos =>
      obtain ⟨entries, rfl⟩ := hdict
      obtain ⟨n, rfl⟩ := hread.exists_dict
      obtain ⟨rows, hobject, hvalues, hrows⟩ := reads_dict_iff.1 hread
      obtain rfl := Value.dict.inj hvalues
      obtain ⟨hdistinct, hbelow⟩ := Value.wellKeyed_dict_iff.1 hkeys
      have hput {start w : Value} (hassign : assign u (next :: rest) start = .ok w) :
          ((assign u (next :: rest) start).map fun below =>
            Value.dict (Value.put (.str part) below rows.values)) =
            .ok (.dict (Value.put (.str part) w rows.values)) := by
        rw [hassign]
        rfl
      rw [assign_cons_dict, Rows.field?_values, write_cons_cons, under?_eq hobject]
      cases hfield : field? part rows with
      | some r =>
        have hr := Value.mem_of_field?_eq_some hfield
        rcases ih (hrows _ hr) (hbelow (.str part, r.2) (List.mem_map_of_mem hr)) next with
          ⟨f, hassign, hwrite⟩ | ⟨w, h', k, hassign, hwrite, hwritten⟩
        · exact .inl ⟨f, by rw [Option.map_some, Option.getD_some, hassign]; rfl, hwrite⟩
        · exact .inr ⟨_, h', k, hput hassign, hwrite,
            hwritten.entry hrows hobject (Rows.distinctTexts_iff.1 hdistinct) hfield⟩
      | none =>
        -- what was just made is empty, and nothing is in the way there
        have hempty : Reads ((h.add []).2.put n part (.dict (h.add []).1)) (.dict (h.add []).1)
            (.dict []) := by
          refine .dict [] ?_ (List.forall_mem_nil _)
          have hne : n ≠ (h.add []).1 := by
            rintro rfl
            rw [object?_add_self h] at hobject
            cases hobject
          rw [object?_put_of_ne hne, object?_add]
          rfl
        rcases ih hempty Value.wellKeyed_nil next with
          ⟨f, hassign, -⟩ | ⟨w, h', k, hassign, hwrite, hwritten⟩
        · obtain ⟨r, hr⟩ := exists_assign_nil_eq_ok u (next :: rest)
          rw [hr] at hassign
          cases hassign
        · exact .inr ⟨_, h', n, hput hassign, hwrite, hwritten.made hrows hobject hfield⟩

end Heap

end ModulePath.Config
