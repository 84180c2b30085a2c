import ModulePath.Proofs.Cache.Recency

/-!
# Entries and values

An entry of a cache may hold nothing. Whether a look-up counts as a hit is a matter of the entry;
whether a value has to be made, and what dropping an entry answers, is a matter of the value in it.
The two agree for an entry that holds a value and differ for an entry that holds nothing
(`answers_of_reachable`).

`Reachable` are the states of a cache under any operations, with a condition on the values that are
stored. In such a state no key has two entries, and every entry holds what may be stored
(`Reachable.stores`, by induction with one case for each operation). So where nothing is never
stored, presence alone decides.
-/

set_option autoImplicit false

namespace ModulePath.Cache

section

variable {κ α : Type} [DecidableEq κ] {admitted : Option α → Prop} {c c' : Cache κ α} {key : κ}
  {v made : Option α}

/-! ## Reachable states -/

/-- One operation that can change a cache, whether it succeeds or not. What it stores is
admitted. -/
inductive Change (admitted : Option α → Prop) (c : Cache κ α) : Cache κ α → Prop
  | get (key : κ) : Change admitted c (c.get key).2
  | set (key : κ) {v : Option α} (hv : admitted v) : Change admitted c (c.set key v).2
  | getOrCompute (key : κ) {made : Option α} (hmade : admitted made) :
    Change admitted c (c.getOrCompute key made).2
  | invalidate (key : κ) : Change admitted c (c.invalidate key).2
  | clear : Change admitted c c.clear
  | enable (enabled : Value) : Change admitted c (c.enable enabled)
  | resize (size : Value) : Change admitted c (c.resize size)

/-- The states of a cache in which only admitted values are stored. -/
inductive Reachable (admitted : Option α → Prop) : Cache κ α → Prop
  | start {s : Settings} {c : Cache κ α} (h : ofSettings? s = .ok c) : Reachable admitted c
  | change {c c' : Cache κ α} (hc : Reachable admitted c) (h : Change admitted c c') :
    Reachable admitted c'

/-- A cache has one entry for a key at most, and its entries hold admitted values. -/
structure Stores (admitted : Option α → Prop) (c : Cache κ α) : Prop where
  distinct : c.keys.Nodup
  admitted : ∀ e ∈ c.entries, admitted e.2

omit [DecidableEq κ] in
theorem stores_nil (hc : c.entries = []) : Stores admitted c := by
  refine ⟨?_, ?_⟩
  · rw [Cache.keys, hc]
    exact List.nodup_nil
  · rw [hc]
    exact List.forall_mem_nil _

omit [DecidableEq κ] in
/-- Entries may go. -/
theorem Stores.of_sublist (h : Stores admitted c) (hentries : List.Sublist c'.entries c.entries) :
    Stores admitted c' :=
  ⟨h.distinct.sublist (hentries.map _), fun e he => h.admitted e (hentries.subset he)⟩

omit [DecidableEq κ] in
/-- Entries may go, and one may come for a key that has none then. -/
theorem Stores.of_concat {kept : List (κ × Option α)} (h : Stores admitted c)
    (hkept : List.Sublist kept c.entries) (hkey : key ∉ kept.map (·.1)) (hv : admitted v)
    (hentries : c'.entries = kept ++ [(key, v)]) : Stores admitted c' := by
  refine ⟨?_, ?_⟩
  · have hkeys : c'.keys = kept.map (·.1) ++ [key] := by
      rw [Cache.keys, hentries, List.map_append]
      rfl
    rw [hkeys, ← List.concat_eq_append]
    exact (h.distinct.sublist (hkept.map _)).concat hkey
  · intro e he
    rw [hentries, List.mem_append, List.mem_singleton] at he
    rcases he with he | rfl
    · exact h.admitted e (hkept.subset he)
    · exact hv

theorem Stores.get (h : Stores admitted c) (key : κ) : Stores admitted (c.get key).2 := by
  rcases get_cases c key with ⟨-, v, hfind, hget⟩ | ⟨-, hget⟩
  · obtain ⟨hmem, -⟩ := find?_eq_some hfind
    rw [hget]
    exact h.of_concat List.filter_sublist (notMem_without key c.entries) (h.admitted _ hmem) rfl
  · rw [hget]
    exact h.of_sublist (.refl _)

/-- A store of an admitted value keeps the keys distinct and the values admitted. -/
theorem Stores.set (h : Stores admitted c) (key : κ) (hv : admitted v) :
    Stores admitted (c.set key v).2 := by
  rcases set_cases c key v with hset | ⟨kept, n, hkept, ⟨hkey, hset⟩ | ⟨f, hset⟩⟩
  · rw [hset]
    exact h
  · rw [hset]
    exact h.of_concat hkept hkey hv rfl
  · rw [hset]
    exact h.of_sublist hkept

theorem Stores.getOrCompute (h : Stores admitted c) (key : κ) (hmade : admitted made) :
    Stores admitted (c.getOrCompute key made).2 := by
  have hget : Stores admitted (c.get key).2 := h.get key
  cases hvalue : (c.get key).1 with
  | some w =>
    rw [getOrCompute_of_value hvalue]
    exact hget
  | none =>
    rw [getOrCompute_of_none hvalue]
    exact hget.set key hmade

/-- Every operation keeps the keys distinct and the values admitted. -/
theorem Stores.change (h : Stores admitted c) (hc : Change admitted c c') : Stores admitted c' := by
  cases hc with
  | get key => exact h.get key
  | set key hv => exact h.set key hv
  | getOrCompute key hmade => exact h.getOrCompute key hmade
  | invalidate key => exact h.of_sublist List.filter_sublist
  | clear => exact stores_nil rfl
  | enable enabled => exact ⟨h.distinct, h.admitted⟩
  | resize size => exact ⟨h.distinct, h.admitted⟩

/-- The induction is on the operations that led to the state. -/
theorem Reachable.stores (h : Reachable admitted c) : Stores admitted c := by
  induction h with
  | start h =>
    obtain rfl := eq_of_ofSettings? h
    exact stores_nil rfl
  | change _ hchange ih => exact ih.change hchange

/-! ## Presence and values -/

/-- A key has an entry, and the entry holds a value. -/
def HoldsValue (c : Cache κ α) (key : κ) : Prop :=
  c.contains key = true ∧ (key, none) ∉ c.entries

/-- Where no key has two entries, the one that is found is the one that is there. -/
theorem Stores.find?_eq_some_iff (h : Stores admitted c) {v : Option α} :
    c.find? key = some (key, v) ↔ (key, v) ∈ c.entries := by
  constructor
  · intro hfind
    exact (find?_eq_some hfind).1
  · intro hmem
    cases hfind : c.find? key with
    | none => exact absurd (List.mem_map_of_mem hmem) (notMem_of_find?_eq_none hfind)
    | some e =>
      obtain ⟨hmem', hkey⟩ := find?_eq_some hfind
      rw [List.inj_on_of_nodup_map h.distinct hmem' hmem hkey]

/-- A key holds a value if its entry has one. -/
theorem Stores.holdsValue_iff (h : Stores admitted c) :
    c.HoldsValue key ↔ ∃ w, c.find? key = some (key, some w) := by
  constructor
  · rintro ⟨hcontains, hnone⟩
    obtain ⟨e, hfind⟩ := Option.isSome_iff_exists.1 hcontains
    obtain ⟨-, rfl⟩ := find?_eq_some hfind
    obtain ⟨key, _ | w⟩ := e
    · exact absurd (h.find?_eq_some_iff.1 hfind) hnone
    · exact ⟨w, hfind⟩
  · rintro ⟨w, hfind⟩
    refine ⟨contains_of_find? hfind, fun hnone => ?_⟩
    rw [h.find?_eq_some_iff.2 hnone] at hfind
    cases hfind

/-- Where no entry without a value is admitted, to be present is to hold a value. -/
theorem Stores.holdsValue_of_not_admitted (h : Stores admitted c) (hnone : ¬admitted none) :
    c.HoldsValue key ↔ c.contains key = true :=
  and_iff_left fun hmem => hnone (h.admitted _ hmem)

/-- Invalidating reports a removal exactly if the removed entry had a value. -/
theorem Stores.invalidate_iff (h : Stores admitted c) :
    (c.invalidate key).1 = true ↔ c.HoldsValue key := by
  rw [h.holdsValue_iff, Cache.invalidate]
  cases hfind : c.find? key with
  | none => simp
  | some e =>
    obtain ⟨-, rfl⟩ := find?_eq_some hfind
    obtain ⟨key, value⟩ := e
    simp [Option.isSome_iff_exists]

/-- A look-up answers nothing exactly if the key holds no value. -/
theorem Stores.get_eq_none_iff (h : Stores admitted c) (hon : c.isEnabled = true) :
    (c.get key).1 = none ↔ ¬c.HoldsValue key := by
  rw [h.holdsValue_iff]
  rcases get_cases c key with ⟨-, v, hfind, hget⟩ | ⟨hno, hget⟩
  · rw [hget, hfind]
    cases v with
    | none => simp
    | some w => simp
  · rw [hget]
    rw [hon, Bool.true_and] at hno
    refine ⟨fun _ => ?_, fun _ => rfl⟩
    rintro ⟨w, hfind⟩
    rw [contains_of_find? hfind] at hno
    cases hno

/-- An invalidated key is absent, whatever was reported. -/
theorem contains_invalidate (c : Cache κ α) (key : κ) :
    (c.invalidate key).2.contains key = false := by
  rw [Bool.eq_false_iff]
  intro hcontains
  exact notMem_without key c.entries (contains_iff.1 hcontains)

/-- What computing a value if need be and dropping an entry tell of a cache in use. A hit is counted
for each key with an entry, and a miss for each other key. A value is made, and dropping an entry
denies that there was one, if the key has no entry or an entry that holds nothing; the entry is gone
in any case. If nothing is never stored, both are a matter of presence alone. -/
theorem answers_of_reachable (hc : Reachable admitted c) (hon : c.isEnabled = true) (key : κ)
    (made : Option α) :
    (c.getOrCompute key made).2.hits = c.hits + (if c.contains key then 1 else 0) ∧
      (c.getOrCompute key made).2.misses = c.misses + (if c.contains key then 0 else 1) ∧
      (wasMade (c.getOrCompute key made).1 = true ↔ ¬c.HoldsValue key) ∧
      (wasMade (c.getOrCompute key made).1 = false →
        ∀ other, c.getOrCompute key other = c.getOrCompute key made) ∧
      ((c.invalidate key).1 = true ↔ c.HoldsValue key) ∧
      (c.invalidate key).2.contains key = false ∧
      (¬admitted none → (c.HoldsValue key ↔ c.contains key = true)) := by
  have hstores : Stores admitted c := hc.stores
  obtain ⟨hhits, hmisses⟩ := counts_getOrCompute c key made
  obtain ⟨hgetHits, hgetMisses⟩ := counts_get c key
  rw [hon, Bool.true_and] at hgetHits hgetMisses
  refine ⟨hhits.trans hgetHits, hmisses.trans hgetMisses, ?_, getOrCompute_of_not_made,
    hstores.invalidate_iff, contains_invalidate c key, hstores.holdsValue_of_not_admitted⟩
  rw [wasMade_getOrCompute, Option.isNone_iff_eq_none]
  exact hstores.get_eq_none_iff hon

end

/-- A cache in which nothing was stored for one key and a number for another one. -/
def sampleEntries : Cache String Nat :=
  ((Cache.set { settings := {} } "a" none).2.set "b" (some 1)).2

theorem reachable_sampleEntries : Reachable (fun _ => True) sampleEntries :=
  ((Reachable.start (s := {}) rfl).change (.set "a" trivial)).change (.set "b" trivial)

/-- The key with the number is found, and its value is not made anew. -/
theorem answers_sampleEntries :
    Reachable (fun _ => True) sampleEntries ∧ sampleEntries.isEnabled = true ∧
      sampleEntries.HoldsValue "b" ∧ (sampleEntries.invalidate "b").1 = true ∧
      (sampleEntries.getOrCompute "b" (some 2)).2.hits = sampleEntries.hits + 1 ∧
      sampleEntries.getOrCompute "b" (some 3) = sampleEntries.getOrCompute "b" (some 2) := by
  have hb : sampleEntries.HoldsValue "b" := ⟨rfl, by decide⟩
  obtain ⟨hhits, -, -, hsame, hinvalidate, -, -⟩ :=
    answers_of_reachable reachable_sampleEntries rfl "b" (some 2)
  exact ⟨reachable_sampleEntries, rfl, hb, hinvalidate.2 hb, hhits, hsame rfl (some 3)⟩

/-- The key with nothing has an entry, and finding it counts as a hit. Still a value is made for it,
and dropping its entry denies that there was one. -/
theorem presence_not_value :
    Reachable (fun _ => True) sampleEntries ∧ sampleEntries.isEnabled = true ∧
      sampleEntries.contains "a" = true ∧ (sampleEntries.invalidate "a").1 = false ∧
      (sampleEntries.getOrCompute "a" (some 2)).2.hits = sampleEntries.hits + 1 ∧
      wasMade (sampleEntries.getOrCompute "a" (some 2)).1 = true :=
  ⟨reachable_sampleEntries, rfl, rfl, rfl, rfl, rfl⟩

end ModulePath.Cache
