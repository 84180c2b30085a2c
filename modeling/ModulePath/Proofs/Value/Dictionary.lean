import ModulePath.Proofs.Value.Parts

/-!
# Dictionaries

What a dictionary holds under a text after some key was given a value (`field?_put_self`,
`field?_put_of_ne`), and data in whose dictionaries no text stands twice as a key. Giving a key a
value keeps the texts apart, so a dictionary that is made entry by entry is of this kind
(`wellKeyed_ofEntries`).
-/

set_option autoImplicit false

namespace ModulePath.Value

/-- A text is the same key as itself only. -/
theorem str_keyEq_iff {s : String} {v : Value} : keyEq (.str s) v = true ↔ v = .str s := by
  cases v with
  | str t =>
    rw [keyEq, beq_iff_eq, str.injEq]
    exact eq_comm
  | null | bool _ | int _ | real _ | list _ | tuple _ | set _ | dict _ =>
    simp [keyEq, numberEq?, toInt?]

/-! ## Giving a key a value -/

section Put

variable {α : Type} {key : Value} {name : String} {v w : α} {entries : List (Value × α)}

theorem field?_cons_of_ne (h : key ≠ .str name) :
    field? name ((key, v) :: entries) = field? name entries := by
  simp [field?, lookup, not_keyEq_str h]

/-- A key has the value that is put. -/
theorem field?_put_self : field? name (put (.str name) v entries) = some v := by
  induction entries with
  | nil => exact field?_cons_self
  | cons e rest ih =>
    obtain ⟨k, old⟩ := e
    rw [put]
    split
    case isTrue hkey =>
      obtain rfl : k = .str name := keyEq_str_iff.1 hkey
      exact field?_cons_self
    case isFalse hkey => rw [field?_cons_of_ne fun h => hkey (keyEq_str_iff.2 h), ih]

/-- Other keys keep their values. -/
theorem field?_put_of_ne (h : key ≠ .str name) :
    field? name (put key v entries) = field? name entries := by
  induction entries with
  | nil => exact field?_cons_of_ne h
  | cons e rest ih =>
    obtain ⟨k, old⟩ := e
    rw [put]
    split
    case isTrue hkey =>
      -- the key that is there is the same as the given one, so it is not the text either
      have hk : k ≠ .str name := by
        rintro rfl
        exact h (str_keyEq_iff.1 hkey)
      rw [field?_cons_of_ne hk, field?_cons_of_ne hk]
    case isFalse =>
      by_cases hk : k = .str name
      · rw [hk, field?_cons_self, field?_cons_self]
      · rw [field?_cons_of_ne hk, field?_cons_of_ne hk, ih]

/-- The keys of a dictionary stay as they are, or a key that is none of them comes last. -/
theorem keys_put (key : Value) (v : α) (entries : List (Value × α)) :
    (put key v entries).map (·.1) = entries.map (·.1) ∨
    (put key v entries).map (·.1) = entries.map (·.1) ++ [key] ∧
      ∀ k ∈ entries.map (·.1), keyEq k key = false := by
  induction entries with
  | nil => exact .inr ⟨rfl, List.forall_mem_nil _⟩
  | cons e rest ih =>
    rw [put]
    split
    case isTrue => exact .inl rfl
    case isFalse hkey =>
      rw [List.map_cons, List.map_cons, List.forall_mem_cons]
      rcases ih with hsame | ⟨hlast, hfresh⟩
      · exact .inl (by rw [hsame])
      · exact .inr ⟨by rw [hlast, List.cons_append], Bool.eq_false_iff.2 hkey, hfresh⟩

theorem mem_put {e : Value × α} (h : e ∈ put key v entries) : e.2 = v ∨ e ∈ entries := by
  induction entries with
  | nil =>
    obtain rfl := List.mem_singleton.1 h
    exact .inl rfl
  | cons e' rest ih =>
    rw [put] at h
    split at h
    case isTrue =>
      rcases List.mem_cons.1 h with rfl | hrest
      · exact .inl rfl
      · exact .inr (List.mem_cons_of_mem _ hrest)
    case isFalse =>
      rcases List.mem_cons.1 h with rfl | hrest
      · exact .inr List.mem_cons_self
      · exact (ih hrest).imp_right (List.mem_cons_of_mem _)

/-- Where no text stands twice, all entries but the one of the text that is given a value stay. -/
theorem mem_put_of_distinctTexts {e : Value × α} (hkeys : DistinctTexts entries)
    (h : e ∈ put (.str name) v entries) : e.2 = v ∨ e ∈ entries ∧ e.1 ≠ .str name := by
  induction entries with
  | nil =>
    obtain rfl := List.mem_singleton.1 h
    exact .inl rfl
  | cons e' rest ih =>
    obtain ⟨hfirst, hrest⟩ := List.pairwise_cons.1 hkeys
    rw [put] at h
    split at h
    case isTrue hkey =>
      rcases List.mem_cons.1 h with rfl | he
      · exact .inl rfl
      · have hne : e.1 ≠ .str name := hfirst _ (List.mem_map_of_mem he) _ (keyEq_str_iff.1 hkey)
        exact .inr ⟨List.mem_cons_of_mem _ he, hne⟩
    case isFalse hkey =>
      rcases List.mem_cons.1 h with rfl | he
      · exact .inr ⟨List.mem_cons_self, fun h => hkey (keyEq_str_iff.2 h)⟩
      · exact (ih hrest he).imp_right fun ⟨he, hne⟩ => ⟨List.mem_cons_of_mem _ he, hne⟩

/-- Giving a key the value that it has changes nothing. -/
theorem put_of_field? (h : field? name entries = some v) : put (.str name) v entries = entries := by
  induction entries with
  | nil => cases h
  | cons e rest ih =>
    obtain ⟨key, old⟩ := e
    rw [put]
    split
    case isTrue hkey =>
      obtain rfl : key = .str name := keyEq_str_iff.1 hkey
      obtain rfl : old = v := Option.some.inj (field?_cons_self.symm.trans h)
      rfl
    case isFalse hkey =>
      rw [field?_cons_of_ne fun heq => hkey (keyEq_str_iff.2 heq)] at h
      rw [ih h]

/-- The keys of a dictionary alone decide where a value is put and where it is found. -/
theorem put_map {β : Type} (f : α → β) : put key (f v) (entries.map fun e => (e.1, f e.2)) =
    (put key v entries).map fun e => (e.1, f e.2) := by
  induction entries with
  | nil => rfl
  | cons e rest ih =>
    rw [List.map_cons, put, put]
    by_cases hkey : keyEq e.1 key = true
    · rw [if_pos hkey, if_pos hkey, List.map_cons]
    · rw [if_neg hkey, if_neg hkey, List.map_cons, ih]

/-- A field of mapped entries is the mapped field. -/
theorem field?_map {β : Type} (f : α → β) :
    field? name (entries.map fun e => (e.1, f e.2)) = (field? name entries).map f := by
  unfold field? lookup
  rw [List.find?_map, Option.map_map, Option.map_map]
  rfl

end Put

variable {key v : Value} {name : String} {entries : List (Value × Value)}

/-! ## Texts as keys -/

/-- No text is put twice. -/
theorem DistinctTexts.put (h : DistinctTexts entries) (key v : Value) :
    DistinctTexts (put key v entries) := by
  unfold DistinctTexts at h ⊢
  rcases keys_put key v entries with hsame | ⟨hlast, hfresh⟩
  · rwa [hsame]
  · rw [hlast, List.pairwise_append]
    refine ⟨h, List.pairwise_singleton _ key, fun k hk k' hk' name hname hkey => ?_⟩
    obtain rfl := List.mem_singleton.1 hk'
    have hne : keyEq k k' = false := hfresh k hk
    rw [hkey, keyEq_str_iff.2 hname] at hne
    contradiction

/-- A text that stands at the head of a dictionary is not found in the rest. -/
theorem DistinctTexts.field?_eq_none (h : DistinctTexts ((.str name, v) :: entries)) :
    field? name entries = none := by
  obtain ⟨hname, -⟩ := List.pairwise_cons.1 h
  refine Option.eq_none_iff_forall_ne_some.2 fun w hw => ?_
  exact hname _ (List.mem_map_of_mem (mem_of_field?_eq_some hw)) name rfl rfl

/-- A dictionary has distinct keys if its own are, and those of all its values. -/
theorem wellKeyed_dict_iff : (dict entries).WellKeyed ↔
    DistinctTexts entries ∧ ∀ e ∈ entries, e.2.WellKeyed := by
  constructor
  · intro h
    cases h with
    | keyed hkeys hvalues => exact ⟨hkeys, hvalues⟩
    | other h => exact absurd ⟨entries, rfl⟩ h
  · rintro ⟨hkeys, hvalues⟩
    exact .keyed hkeys hvalues

theorem wellKeyed_nil : (dict []).WellKeyed := .keyed .nil (List.forall_mem_nil _)

theorem WellKeyed.of_field? {w : Value} (h : (dict entries).WellKeyed)
    (hw : field? name entries = some w) : w.WellKeyed :=
  (wellKeyed_dict_iff.1 h).2 _ (mem_of_field?_eq_some hw)

/-- A value with distinct keys may be put under any key. -/
theorem WellKeyed.put (h : (dict entries).WellKeyed) (hv : v.WellKeyed) (key : Value) :
    (dict (Value.put key v entries)).WellKeyed := by
  obtain ⟨hkeys, hvalues⟩ := wellKeyed_dict_iff.1 h
  refine .keyed (hkeys.put key v) fun e he => ?_
  rcases mem_put he with rfl | hmem
  · exact hv
  · exact hvalues e hmem

theorem wellKeyed_ofEntries {es : List (Value × Value)} (h : ∀ e ∈ es, e.2.WellKeyed) :
    (ofEntries es).WellKeyed := by
  -- the dictionary that was made so far is well keyed, whichever entries it has
  suffices hall : ∀ d, (dict d).WellKeyed →
      (dict (es.foldl (fun d e => Value.put e.1 e.2 d) d)).WellKeyed from hall [] wellKeyed_nil
  induction es with
  | nil => exact fun d hd => hd
  | cons e rest ih =>
    obtain ⟨he, hrest⟩ := List.forall_mem_cons.1 h
    intro d hd
    exact ih hrest _ (hd.put he e.1)

end ModulePath.Value
