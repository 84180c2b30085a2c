import ModulePath.Cache.Basic
import ModulePath.Proofs.Outcome

/-!
# What the operations of a cache can do

A look-up finds an entry or does not (`get_cases`); storing does nothing, has an entry come last, or
fails for want of room (`set_cases`). Both hold of every cache, whatever its size and whether it is
in use, and say all that changes. So hits and misses are counted by the entry that a look-up finds
(`counts_get`), while a value is made if the look-up gives none (`wasMade_getOrCompute`).
-/

set_option autoImplicit false

namespace ModulePath.Cache

section

variable {κ α : Type} {c : Cache κ α} {key : κ} {made : Option α}

/-- A cache that is made has its settings and nothing else. -/
theorem eq_of_ofSettings? {s : Settings} (h : ofSettings? s = .ok c) : c = { settings := s } := by
  obtain ⟨-, hc⟩ := Outcome.check_seq_eq_ok.1 h
  exact (Outcome.pure_eq_ok.1 hc).symm

/-- Making room takes entries away and changes no count but that of the evictions. -/
theorem makeRoom_spec (c : Cache κ α) :
    ∃ kept n, List.Sublist kept c.entries ∧
      c.makeRoom.2 = { c with entries := kept, evictions := n } := by
  unfold makeRoom
  split
  · exact ⟨c.entries, c.evictions, .refl _, rfl⟩
  · exact ⟨c.entries, c.evictions, .refl _, rfl⟩
  · exact ⟨[], _, List.nil_sublist _, rfl⟩
  · exact ⟨_, _, List.drop_sublist _ _, rfl⟩

variable [BEq κ]

theorem mem_of_mem_without {e : κ × Option α} {entries : List (κ × Option α)}
    (h : e ∈ without key entries) : e ∈ entries :=
  (List.mem_filter.1 h).1

theorem contains_of_find? {e : κ × Option α} (h : c.find? key = some e) :
    c.contains key = true := by
  rw [Cache.contains, h]
  rfl

theorem contains_eq_false_of_find? (h : c.find? key = none) : c.contains key = false := by
  rw [Cache.contains, h]
  rfl

/-- A value that is found is the answer. -/
theorem getOrCompute_of_value {w : α} (h : (c.get key).1 = some w) (made : Option α) :
    c.getOrCompute key made = (.ok ⟨some w, false⟩, (c.get key).2) := by
  unfold Cache.getOrCompute
  generalize c.get key = looked at h
  obtain ⟨value, c'⟩ := looked
  obtain rfl : value = some w := h
  rfl

/-- Without a value one is made and stored. -/
theorem getOrCompute_of_none (h : (c.get key).1 = none) (made : Option α) :
    c.getOrCompute key made =
      (((c.get key).2.set key made).1.map fun _ => ⟨made, true⟩,
        ((c.get key).2.set key made).2) := by
  unfold Cache.getOrCompute
  generalize c.get key = looked at h
  obtain ⟨value, c₁⟩ := looked
  obtain rfl : value = none := h
  dsimp only
  generalize c₁.set key made = stored
  obtain ⟨r, c₂⟩ := stored
  cases r with
  | ok u => rfl
  | error f => rfl

variable [LawfulBEq κ]

theorem find?_eq_some {e : κ × Option α} (h : c.find? key = some e) :
    e ∈ c.entries ∧ e.1 = key := by
  unfold Cache.find? at h
  have hkey := List.find?_some h
  exact ⟨List.mem_of_find?_eq_some h, eq_of_beq hkey⟩

/-- The entry of a key is not among the others. -/
theorem notMem_without (key : κ) (entries : List (κ × Option α)) :
    key ∉ (without key entries).map (·.1) := by
  rw [List.mem_map]
  rintro ⟨e, he, hkey⟩
  have hne := (List.mem_filter.1 he).2
  simp [hkey] at hne

/-- A key for which nothing is found is no key of the cache. -/
theorem notMem_of_find?_eq_none (h : c.find? key = none) : key ∉ c.entries.map (·.1) := by
  rw [List.mem_map]
  rintro ⟨e, he, rfl⟩
  have hne := List.find?_eq_none.1 h e he
  simp at hne

/-- A look-up finds the entry of its key, which then comes last and counts as a hit, or it finds
none and counts as a miss. -/
theorem get_cases (c : Cache κ α) (key : κ) :
    (c.isEnabled = true ∧ ∃ v, c.find? key = some (key, v) ∧
      c.get key =
        (v, { c with entries := without key c.entries ++ [(key, v)], hits := c.hits + 1 })) ∨
    ((c.isEnabled && c.contains key) = false ∧
      c.get key = (none, { c with misses := c.misses + 1 })) := by
  unfold Cache.get
  cases hon : c.isEnabled with
  | false => exact .inr ⟨rfl, rfl⟩
  | true =>
    cases hfind : c.find? key with
    | none => exact .inr ⟨contains_eq_false_of_find? hfind, rfl⟩
    | some e =>
      obtain ⟨-, rfl⟩ := find?_eq_some hfind
      exact .inl ⟨rfl, e.2, rfl, rfl⟩

/-- Storing does nothing in a cache that is not in use. Otherwise the key has its only entry at the
end, or there is no room and the entries that were pushed out are gone. -/
theorem set_cases (c : Cache κ α) (key : κ) (v : Option α) :
    c.set key v = (.ok (), c) ∨
    ∃ kept n, List.Sublist kept c.entries ∧
      ((key ∉ kept.map (·.1) ∧
          c.set key v = (.ok (), { c with entries := kept ++ [(key, v)], evictions := n })) ∨
        ∃ f, c.set key v = (.error f, { c with entries := kept, evictions := n })) := by
  unfold Cache.set
  cases c.isEnabled with
  | false => exact .inl rfl
  | true =>
    right
    rw [if_pos rfl]
    cases hfind : c.find? key with
    | some e =>
      obtain ⟨-, rfl⟩ := find?_eq_some hfind
      exact ⟨without e.1 c.entries, c.evictions, List.filter_sublist,
        .inl ⟨notMem_without e.1 c.entries, rfl⟩⟩
    | none =>
      -- making room may fail, and then nothing is stored
      obtain ⟨kept, n, hkept, hroom⟩ := makeRoom_spec c
      have hkey : key ∉ kept.map (·.1) := fun hmem =>
        notMem_of_find?_eq_none hfind ((hkept.map _).subset hmem)
      refine ⟨kept, n, hkept, ?_⟩
      generalize c.makeRoom = made at hroom
      obtain ⟨r, c'⟩ := made
      obtain rfl : c' = _ := hroom
      cases r with
      | ok u => exact .inl ⟨hkey, rfl⟩
      | error f => exact .inr ⟨f, rfl⟩

/-! ## Settings -/

/-- A look-up changes no setting. -/
theorem settings_get (c : Cache κ α) (key : κ) : (c.get key).2.settings = c.settings := by
  rcases get_cases c key with ⟨-, v, -, hget⟩ | ⟨-, hget⟩
  · rw [hget]
  · rw [hget]

theorem settings_set (c : Cache κ α) (key : κ) (v : Option α) :
    (c.set key v).2.settings = c.settings := by
  rcases set_cases c key v with hset | ⟨kept, n, -, ⟨-, hset⟩ | ⟨f, hset⟩⟩
  · rw [hset]
  · rw [hset]
  · rw [hset]

theorem settings_getOrCompute (c : Cache κ α) (key : κ) (made : Option α) :
    (c.getOrCompute key made).2.settings = c.settings := by
  cases hvalue : (c.get key).1 with
  | some w => rw [getOrCompute_of_value hvalue, settings_get]
  | none => rw [getOrCompute_of_none hvalue, settings_set, settings_get]

/-! ## Counts -/

/-- A look-up counts by the entry. -/
theorem counts_get (c : Cache κ α) (key : κ) :
    (c.get key).2.hits = c.hits + (if c.isEnabled && c.contains key then 1 else 0) ∧
      (c.get key).2.misses = c.misses + (if c.isEnabled && c.contains key then 0 else 1) := by
  rcases get_cases c key with ⟨hon, v, hfind, hget⟩ | ⟨hno, hget⟩
  · rw [hget, hon, contains_of_find? hfind]
    exact ⟨rfl, rfl⟩
  · rw [hget, hno]
    exact ⟨rfl, rfl⟩

/-- A store counts neither as a hit nor as a miss. -/
theorem counts_set (c : Cache κ α) (key : κ) (v : Option α) :
    (c.set key v).2.hits = c.hits ∧ (c.set key v).2.misses = c.misses := by
  rcases set_cases c key v with hset | ⟨kept, n, -, ⟨-, hset⟩ | ⟨f, hset⟩⟩
  · rw [hset]
    exact ⟨rfl, rfl⟩
  · rw [hset]
    exact ⟨rfl, rfl⟩
  · rw [hset]
    exact ⟨rfl, rfl⟩

/-- Computing a value if need be counts as the look-up in it does. -/
theorem counts_getOrCompute (c : Cache κ α) (key : κ) (made : Option α) :
    (c.getOrCompute key made).2.hits = (c.get key).2.hits ∧
      (c.getOrCompute key made).2.misses = (c.get key).2.misses := by
  cases hvalue : (c.get key).1 with
  | some w =>
    rw [getOrCompute_of_value hvalue]
    exact ⟨rfl, rfl⟩
  | none =>
    rw [getOrCompute_of_none hvalue]
    exact counts_set _ key made

/-! ## Values that are made -/

/-- Whether a call had its value made. A value is stored after it was made, so a call that failed to
store one had it made. -/
def wasMade : Except Fault (Answer α) → Bool
  | .ok a => a.isNew
  | .error _ => true

@[simp] theorem wasMade_ok (a : Answer α) : wasMade (.ok a) = a.isNew := rfl

omit [LawfulBEq κ] in
/-- A value is made exactly if the look-up answers nothing. -/
theorem wasMade_getOrCompute (c : Cache κ α) (key : κ) (made : Option α) :
    wasMade (c.getOrCompute key made).1 = (c.get key).1.isNone := by
  cases hvalue : (c.get key).1 with
  | some w =>
    rw [getOrCompute_of_value hvalue]
    rfl
  | none =>
    rw [getOrCompute_of_none hvalue]
    dsimp only
    cases ((c.get key).2.set key made).1 with
    | ok u => rfl
    | error f => rfl

omit [LawfulBEq κ] in
/-- A call that had no value made comes to the same whatever there was to be made. -/
theorem getOrCompute_of_not_made (h : wasMade (c.getOrCompute key made).1 = false)
    (other : Option α) : c.getOrCompute key other = c.getOrCompute key made := by
  rw [wasMade_getOrCompute] at h
  cases hvalue : (c.get key).1 with
  | some w => rw [getOrCompute_of_value hvalue, getOrCompute_of_value hvalue]
  | none =>
    rw [hvalue] at h
    cases h

end

end ModulePath.Cache
