import ModulePath.Proofs.Cache.Presence

/-!
# The balance of a cache

Values are stored in a cache of positive size, looked up and dropped, and its settings change
(`Action`). Beside it runs a `Tally` of what has been done since the cache was last emptied. What
one action does is said once (`Effect`): it keeps the keys that are there, adds one and pushes the
oldest out for it, drops one, or empties the cache. From this it follows that the tally and the
counts of the cache balance after each action (`Balanced.step`), and so after a whole run
(`Balanced.run`): every look-up was a hit or a miss, and every key that was added is still there,
was pushed out or was dropped.
-/

set_option autoImplicit false

namespace ModulePath.Cache

/-! ## Sizes -/

/-- So many entries are within a size: for a whole number as it stands, for other data by the limit
that they set. -/
def WithinSize (n : Nat) : Value → Prop
  | .int m => (n : Int) ≤ m
  | size => ∀ k, Limit.ofValue size = .atMost k → n ≤ k

/-- A size without a limit admits any number of entries. -/
theorem withinSize_of_unbounded {n : Nat} {size : Value} (h : Limit.ofValue size = .unbounded) :
    WithinSize n size := by
  cases size with
  | int m => cases h
  | null | bool _ | real _ | str _ | list _ | tuple _ | set _ | dict _ =>
    intro k hk
    rw [h] at hk
    cases hk

theorem withinSize_of_atMost {n k : Nat} {size : Value} (hsize : IsPositive size)
    (h : Limit.ofValue size = .atMost k) (hn : n ≤ k) : WithinSize n size := by
  cases size with
  | int m =>
    -- a whole number above zero is its own limit
    have hm : 0 < m := hsize
    have hk : m.toNat = k := Limit.atMost.inj h
    have hle : (n : Int) ≤ m := by omega
    exact hle
  | null | bool _ | real _ | str _ | list _ | tuple _ | set _ | dict _ =>
    intro k' hk'
    rw [h] at hk'
    exact Limit.atMost.inj hk' ▸ hn

/-! ## Actions -/

section

variable (κ α : Type)

/-- An action on a cache that stores no missing values and only ever gets positive sizes. A
computation that fails leaves no more than its look-up, which is `get`; one that goes to the cache
itself stands between a `get` and a `set`. -/
inductive Action where
  | get (key : κ)
  | set (key : κ) (v : α)
  | getOrCompute (key : κ) (made : α)
  | invalidate (key : κ)
  | clear
  | enable (enabled : Value)
  | resize (size : Value) (positive : IsPositive size)

end

variable {κ α : Type}

/-- How many look-ups an action makes. -/
def Action.lookUps : Action κ α → Nat
  | .get _ | .getOrCompute _ _ => 1
  | _ => 0

variable [DecidableEq κ]

/-- The cache after an action. -/
def perform (c : Cache κ α) : Action κ α → Cache κ α
  | .get key => (c.get key).2
  | .set key v => (c.set key (some v)).2
  | .getOrCompute key made => (c.getOrCompute key (some made)).2
  | .invalidate key => (c.invalidate key).2
  | .clear => c.clear
  | .enable enabled => c.enable enabled
  | .resize size _ => c.resize size

/-- Whether a key is there only afterwards. -/
def gains (c c' : Cache κ α) (key : κ) : Bool := !c.contains key && c'.contains key

/-- Whether an action stores a value under a key that was not there. -/
def adds (c : Cache κ α) : Action κ α → Bool
  | .set key v => c.gains (c.perform (.set key v)) key
  | .getOrCompute key made => c.gains (c.perform (.getOrCompute key made)) key
  | _ => false

/-- Whether an action drops an entry and answers that there was one. -/
def drops (c : Cache κ α) : Action κ α → Bool
  | .invalidate key => (c.invalidate key).1
  | _ => false

/-- What has been done with a cache since it was last emptied. -/
structure Tally where
  /-- The look-ups. -/
  lookUps : Nat := 0
  /-- The stores that added a key. -/
  added : Nat := 0
  /-- The entries that were dropped on demand. -/
  dropped : Nat := 0
deriving DecidableEq

/-- The tally after one more action on a cache. -/
def Tally.after (t : Tally) (c : Cache κ α) : Action κ α → Tally
  | .clear => {}
  | a => ⟨t.lookUps + a.lookUps, t.added + (c.adds a).toNat, t.dropped + (c.drops a).toNat⟩

/-- The actions one after another: the tally, and the cache that is left. -/
def performAll (c : Cache κ α) (t : Tally) : List (Action κ α) → Tally × Cache κ α
  | [] => (t, c)
  | a :: as => performAll (c.perform a) (t.after c a) as

section

variable {admitted : Option α → Prop} {c c' : Cache κ α} {a : Action κ α} {t : Tally} {key : κ}
  {v : Option α}

/-! ## Keys -/

omit [DecidableEq κ] in
theorem length_keys (c : Cache κ α) : c.keys.length = c.size := List.length_map _

theorem gains_of_contains (h : c.contains key = true) : c.gains c' key = false := by
  rw [gains, h]
  rfl

/-- Without a key, the other keys keep their order. -/
theorem Stores.keys_without (h : Stores admitted c) (key : κ) :
    (without key c.entries).map (·.1) = c.keys.erase key := by
  rw [h.distinct.erase_eq_filter, Cache.keys, List.filter_map]
  rfl

/-- The keys are the same when an entry comes last that was there. -/
theorem Stores.perm_of_last (h : Stores admitted c) (hkey : c.contains key = true)
    (hentries : c'.entries = without key c.entries ++ [(key, v)]) : c'.keys.Perm c.keys := by
  rw [Cache.keys, hentries, List.map_append, h.keys_without]
  exact (List.perm_append_singleton key _).trans
    (List.perm_cons_erase (contains_iff.1 hkey)).symm

/-! ## Storing -/

/-- What storing a value under a key does: the key is not gained and the others stay; or it is
gained, after some of the oldest ones were pushed out for it. -/
inductive StoreEffect (c : Cache κ α) (key : κ) (c' : Cache κ α) : Prop
  | kept (hgains : c.gains c' key = false) (hkeys : c'.keys.Perm c.keys)
    (hevictions : c'.evictions = c.evictions)
  | added (hgains : c.gains c' key = true) (n : Nat) (hn : n ≤ c.size)
    (hkeys : c'.keys = c.keys.drop n ++ [key]) (hevictions : c'.evictions = c.evictions + n)
    (hfits : WithinSize c'.size c.settings.size)

omit [DecidableEq κ] in
/-- A cache of positive size pushes out as many as it has to. -/
theorem makeRoom_of_isPositive (hs : IsPositive c.settings.size) :
    ∃ n ≤ c.size, WithinSize (c.size - n + 1) c.settings.size ∧
      c.makeRoom =
        (.ok (), { c with entries := c.entries.drop n, evictions := c.evictions + n }) := by
  unfold makeRoom
  rcases limit_of_isPositive hs with hlimit | ⟨room, hlimit⟩
  · rw [hlimit]
    exact ⟨0, Nat.zero_le _, withinSize_of_unbounded hlimit, rfl⟩
  · rw [hlimit]
    exact ⟨c.size - room, Nat.sub_le _ _, withinSize_of_atMost hs hlimit (by omega), rfl⟩

/-- A store puts its key last and drops no more than the entry that has to go. -/
theorem Stores.set_effect (h : Stores admitted c) (hs : IsPositive c.settings.size) (key : κ)
    (v : Option α) : StoreEffect c key (c.set key v).2 := by
  unfold Cache.set
  cases c.isEnabled with
  | false => exact .kept (by simp [gains]) (.refl _) rfl
  | true =>
    rw [if_pos rfl]
    cases hfind : c.find? key with
    | some e =>
      -- the entry is replaced, and its key comes last
      obtain ⟨-, rfl⟩ := find?_eq_some hfind
      have hkey : c.contains e.1 = true := contains_of_find? hfind
      exact .kept (gains_of_contains hkey) (h.perm_of_last hkey rfl) rfl
    | none =>
      obtain ⟨n, hn, hfits, hroom⟩ := makeRoom_of_isPositive hs
      rw [hroom]
      refine .added ?_ n hn ?_ rfl ?_
      · rw [gains, contains_eq_false_of_find? hfind, Bool.not_false, Bool.true_and, contains_iff]
        simp [Cache.keys]
      · simp [Cache.keys, List.map_drop]
      · simpa [Cache.size] using hfits

/-- A look-up drops nothing; at most it moves its key. -/
theorem Stores.get_effect (h : Stores admitted c) (key : κ) :
    (c.get key).2.keys.Perm c.keys ∧ (c.get key).2.evictions = c.evictions := by
  rcases get_cases c key with ⟨-, v, hfind, hget⟩ | ⟨-, hget⟩
  · rw [hget]
    exact ⟨h.perm_of_last (contains_of_find? hfind) rfl, rfl⟩
  · rw [hget]
    exact ⟨.refl _, rfl⟩

/-- A value that is there is found, and otherwise one is stored. -/
theorem Stores.getOrCompute_effect (h : Stores (· ≠ none) c) (hs : IsPositive c.settings.size)
    (key : κ) (made : Option α) : StoreEffect c key (c.getOrCompute key made).2 := by
  rcases get_cases c key with ⟨-, v, hfind, hget⟩ | ⟨-, hget⟩
  · obtain ⟨hmem, -⟩ := find?_eq_some hfind
    obtain ⟨w, rfl⟩ := Option.ne_none_iff_exists'.1 (h.admitted _ hmem)
    have hvalue : (c.get key).1 = some w := by rw [hget]
    obtain ⟨hkeys, hevictions⟩ := h.get_effect key
    rw [getOrCompute_of_value hvalue]
    exact .kept (gains_of_contains (contains_of_find? hfind)) hkeys hevictions
  · have hvalue : (c.get key).1 = none := by rw [hget]
    -- a look-up that finds nothing changes no more than a count
    have hmissed : Stores (· ≠ none) { c with misses := c.misses + 1 } := ⟨h.distinct, h.admitted⟩
    rw [getOrCompute_of_none hvalue, hget]
    cases hmissed.set_effect hs key made with
    | kept hgains hkeys hevictions => exact .kept hgains hkeys hevictions
    | added hgains n hn hkeys hevictions hfits => exact .added hgains n hn hkeys hevictions hfits

/-! ## Any action -/

/-- What an action does: the keys stay, in some order; or one is added, and the oldest ones are
pushed out for it; or one is dropped; or the cache is emptied. -/
inductive Effect (c : Cache κ α) (a : Action κ α) (c' : Cache κ α) : Prop
  | kept (hadds : c.adds a = false) (hdrops : c.drops a = false) (hkeys : c'.keys.Perm c.keys)
    (hevictions : c'.evictions = c.evictions)
  | added (hadds : c.adds a = true) (hdrops : c.drops a = false) (key : κ) (n : Nat)
    (hn : n ≤ c.size) (hkeys : c'.keys = c.keys.drop n ++ [key])
    (hevictions : c'.evictions = c.evictions + n) (hfits : WithinSize c'.size c.settings.size)
  | dropped (key : κ) (ha : a = .invalidate key) (hdrops : c.drops a = true)
    (hkeys : c.keys.Perm (key :: c'.keys)) (hevictions : c'.evictions = c.evictions)
  | cleared (ha : a = .clear) (hc : c' = c.clear)

/-- An action adds the key that it stores a value under, or none. -/
theorem StoreEffect.effect (h : StoreEffect c key c') (hadds : c.adds a = c.gains c' key)
    (hdrops : c.drops a = false) : Effect c a c' := by
  cases h with
  | kept hgains hkeys hevictions => exact .kept (hadds.trans hgains) hdrops hkeys hevictions
  | added hgains n hn hkeys hevictions hfits =>
    exact .added (hadds.trans hgains) hdrops key n hn hkeys hevictions hfits

/-- What invalidating drops is the entry of its key, if there is one. -/
theorem Stores.invalidate_effect (h : Stores (· ≠ none) c) (key : κ) :
    Effect c (.invalidate key) (c.invalidate key).2 := by
  have hdrops : c.drops (.invalidate key) = true ↔ key ∈ c.keys := by
    rw [← contains_iff, ← h.holdsValue_of_not_admitted (not_not_intro rfl), ← h.invalidate_iff]
    rfl
  have hkeys : (c.invalidate key).2.keys = c.keys.erase key := h.keys_without key
  by_cases hkey : key ∈ c.keys
  · refine .dropped key rfl (hdrops.2 hkey) ?_ rfl
    rw [hkeys]
    exact List.perm_cons_erase hkey
  · refine .kept rfl (Bool.eq_false_iff.2 (mt hdrops.1 hkey)) ?_ rfl
    rw [hkeys, List.erase_of_not_mem hkey]

/-- The inversion of an action on a cache of positive size that holds values only. -/
theorem Stores.effect (h : Stores (· ≠ none) c) (hs : IsPositive c.settings.size)
    (a : Action κ α) : Effect c a (c.perform a) := by
  cases a with
  | get key =>
    obtain ⟨hkeys, hevictions⟩ := h.get_effect key
    exact .kept rfl rfl hkeys hevictions
  | set key v => exact (h.set_effect hs key (some v)).effect rfl rfl
  | getOrCompute key made => exact (h.getOrCompute_effect hs key (some made)).effect rfl rfl
  | invalidate key => exact h.invalidate_effect key
  | clear => exact .cleared rfl rfl
  | enable enabled => exact .kept rfl rfl (.refl _) rfl
  | resize size positive => exact .kept rfl rfl (.refl _) rfl

/-- A key that is added is one entry more or pushes others out, and one that is dropped is one entry
less. -/
theorem Effect.size_add_evictions (h : Effect c a c') (ha : a ≠ .clear) :
    c'.size + c'.evictions + (c.drops a).toNat = c.size + c.evictions + (c.adds a).toNat := by
  cases h with
  | kept hadds hdrops hkeys hevictions =>
    have hsize : c'.size = c.size := by
      rw [← length_keys, ← length_keys, hkeys.length_eq]
    rw [hadds, hdrops, hsize, hevictions]
  | added hadds hdrops key n hn hkeys hevictions hfits =>
    -- the `n` oldest keys went before the new one came
    have hsize : c'.size = c.size - n + 1 := by
      rw [← length_keys, ← length_keys, hkeys, List.length_append, List.length_drop,
        List.length_singleton]
    rw [hadds, hdrops, hsize, hevictions, Bool.toNat_true, Bool.toNat_false]
    omega
  | dropped key ha hdrops hkeys hevictions =>
    have hsize : c.size = c'.size + 1 := by
      rw [← length_keys, ← length_keys, hkeys.length_eq, List.length_cons]
    have hadds : c.adds a = false := by
      rw [ha]
      rfl
    rw [hadds, hdrops, hsize, hevictions, Bool.toNat_true, Bool.toNat_false]
    omega
  | cleared hclear hc => exact absurd hclear ha

/-- What adds a key leaves no more entries than the size lets in. -/
theorem Effect.withinSize (h : Effect c a c') (hadds : c.adds a = true) :
    WithinSize c'.size c.settings.size := by
  cases h with
  | kept hnot hdrops hkeys hevictions =>
    rw [hnot] at hadds
    cases hadds
  | added hadds hdrops key n hn hkeys hevictions hfits => exact hfits
  | dropped key ha hdrops hkeys hevictions =>
    subst ha
    cases hadds
  | cleared ha hc =>
    subst ha
    cases hadds

/-- What adds no key makes the cache no larger and pushes nothing out. -/
theorem Effect.of_not_adds (h : Effect c a c') (hadds : c.adds a = false) :
    c'.size ≤ c.size ∧ c'.evictions ≤ c.evictions ∧
      ∀ key ∈ c.keys, key ∈ c'.keys ∨ a = .invalidate key ∨ a = .clear := by
  rw [← length_keys, ← length_keys]
  cases h with
  | kept hnot hdrops hkeys hevictions =>
    refine ⟨hkeys.length_eq.le, hevictions.le, fun key hkey => .inl ?_⟩
    exact hkeys.mem_iff.2 hkey
  | added hadd hdrops key n hn hkeys hevictions hfits =>
    rw [hadd] at hadds
    cases hadds
  | dropped dropped ha hdrops hkeys hevictions =>
    refine ⟨?_, hevictions.le, fun key hkey => ?_⟩
    · rw [hkeys.length_eq]
      exact Nat.le_succ _
    · -- only the key that was asked for goes
      rcases List.mem_cons.1 (hkeys.mem_iff.1 hkey) with rfl | hmem
      · exact .inr (.inl ha)
      · exact .inl hmem
  | cleared ha hc =>
    subst hc
    exact ⟨Nat.zero_le _, Nat.zero_le _, fun key _ => .inr (.inr ha)⟩

/-- Every look-up is a hit or a miss, and nothing else is. -/
theorem lookUps_perform (c : Cache κ α) (ha : a ≠ .clear) :
    (c.perform a).hits + (c.perform a).misses = c.hits + c.misses + a.lookUps := by
  have hlook : ∀ key, (c.get key).2.hits + (c.get key).2.misses = c.hits + c.misses + 1 := by
    intro key
    obtain ⟨hhits, hmisses⟩ := counts_get c key
    rw [hhits, hmisses]
    -- one of the two counts goes up
    cases c.isEnabled && c.contains key with
    | true => exact Nat.add_right_comm _ _ _
    | false => rfl
  cases a with
  | get key => exact hlook key
  | set key v =>
    obtain ⟨hhits, hmisses⟩ := counts_set c key (some v)
    rw [perform, hhits, hmisses]
    rfl
  | getOrCompute key made =>
    obtain ⟨hhits, hmisses⟩ := counts_getOrCompute c key (some made)
    rw [perform, hhits, hmisses]
    exact hlook key
  | clear => exact absurd rfl ha
  | invalidate _ | enable _ | resize _ _ => rfl

theorem isPositive_perform (h : IsPositive c.settings.size) (a : Action κ α) :
    IsPositive (c.perform a).settings.size := by
  cases a with
  | get key => rwa [perform, settings_get]
  | set key v => rwa [perform, settings_set]
  | getOrCompute key made => rwa [perform, settings_getOrCompute]
  | resize size positive => exact positive
  | invalidate _ | clear | enable _ => exact h

/-- Distinct keys, none of them with a missing value, stay so under every action. -/
theorem Stores.perform (h : Stores (· ≠ none) c) (a : Action κ α) :
    Stores (· ≠ none) (c.perform a) := by
  apply h.change
  cases a with
  | get key => exact .get key
  | set key v => exact .set key (Option.some_ne_none v)
  | getOrCompute key made => exact .getOrCompute key (Option.some_ne_none made)
  | invalidate key => exact .invalidate key
  | clear => exact .clear
  | enable enabled => exact .enable enabled
  | resize size positive => exact .resize size

/-! ## The invariant -/

/-- A cache of positive size that holds values only balances with a tally: its look-ups are its hits
and misses, and the keys that were added are there, were pushed out or were dropped. -/
structure Balanced (t : Tally) (c : Cache κ α) : Prop where
  size : IsPositive c.settings.size
  stores : Stores (· ≠ none) c
  lookUps : c.hits + c.misses = t.lookUps
  entries : t.added = c.size + c.evictions + t.dropped

omit [DecidableEq κ] in
/-- A new cache has the counts of the empty tally. -/
theorem balanced_of_ofSettings? {s : Settings} (h : ofSettings? s = .ok c) : Balanced {} c := by
  obtain ⟨hcheck, -⟩ := Outcome.check_seq_eq_ok.1 h
  obtain rfl := eq_of_ofSettings? h
  exact ⟨Settings.check_eq_ok_iff.1 hcheck, stores_nil rfl, rfl, rfl⟩

theorem Tally.after_of_ne_clear (ha : a ≠ .clear) :
    t.after c a =
      ⟨t.lookUps + a.lookUps, t.added + (c.adds a).toNat, t.dropped + (c.drops a).toNat⟩ := by
  cases a with
  | clear => exact absurd rfl ha
  | get _ | set _ _ | getOrCompute _ _ | invalidate _ | enable _ | resize _ _ => rfl

/-- One action keeps the balance. -/
theorem Balanced.step (h : Balanced t c) (a : Action κ α) :
    Balanced (t.after c a) (c.perform a) := by
  by_cases ha : a = .clear
  · -- the counts and the tally start again
    subst ha
    exact ⟨h.size, stores_nil rfl, rfl, rfl⟩
  · have hlookUps := lookUps_perform c ha
    have hentries := (h.stores.effect h.size a).size_add_evictions ha
    rw [Tally.after_of_ne_clear ha]
    refine ⟨isPositive_perform h.size a, h.stores.perform a, ?_, ?_⟩
    · rw [hlookUps, h.lookUps]
    · dsimp only
      rw [h.entries]
      omega

/-- The induction is on the actions that are left. -/
theorem Balanced.run (h : Balanced t c) (as : List (Action κ α)) :
    Balanced (c.performAll t as).1 (c.performAll t as).2 := by
  induction as generalizing t c with
  | nil => exact h
  | cons a as ih => exact ih (h.step a)

end

/-! ## All runs -/

/-- After any actions on a cache, and counted from when it was last emptied, the hits and misses are
the look-ups, and the keys that were added are those that are there, those that were pushed out and
those that were dropped. No key stands twice. Whatever comes next, if it adds a key then no more are
left than the size of that time lets in, also when the cache was larger before; if it adds none then
the cache does not grow and nothing is pushed out. -/
theorem counts_balance {s : Settings} {c : Cache κ α} (h : ofSettings? s = .ok c)
    (as : List (Action κ α)) {t : Tally} {c' : Cache κ α} (hrun : c.performAll {} as = (t, c')) :
    c'.hits + c'.misses = t.lookUps ∧
      t.added = c'.size + c'.evictions + t.dropped ∧
      c'.keys.Nodup ∧
      ∀ a : Action κ α,
        (c'.adds a = true → WithinSize (c'.perform a).size c'.settings.size) ∧
        (c'.adds a = false → (c'.perform a).size ≤ c'.size ∧
          (c'.perform a).evictions ≤ c'.evictions ∧
          ∀ key ∈ c'.keys, key ∈ (c'.perform a).keys ∨ a = .invalidate key ∨ a = .clear) := by
  have hbalanced : Balanced t c' := by
    have hbalanced := (balanced_of_ofSettings? h).run as
    rwa [hrun] at hbalanced
  refine ⟨hbalanced.lookUps, hbalanced.entries, hbalanced.stores.distinct, fun a => ?_⟩
  have heffect : Effect c' a (c'.perform a) := hbalanced.stores.effect hbalanced.size a
  exact ⟨heffect.withinSize, heffect.of_not_adds⟩

/-- Actions on a cache that becomes smaller while it is full, and is out of use for a time. -/
def sampleActions : List (Action String Nat) :=
  [.set "a" 1, .set "b" 2, .set "c" 3, .get "a", .get "z", .invalidate "b", .invalidate "b",
    .resize (.int 1) (by decide), .getOrCompute "d" 4, .enable (.bool false), .set "e" 5, .get "d",
    .enable (.bool true)]

/-- A cache for three keys. -/
def sampleStart : Cache String Nat := { settings := ⟨.int 3, .bool true⟩ }

/-- The tally of the actions on it, and what is left of it. -/
def sampleAfter : Tally × Cache String Nat := sampleStart.performAll {} sampleActions

/-- One key was dropped, two were pushed out when the next one came, and one is there. -/
theorem counts_balance_sampleActions :
    ofSettings? ⟨.int 3, .bool true⟩ = .ok sampleStart ∧
      sampleAfter.1 = ⟨4, 4, 1⟩ ∧ sampleAfter.2.entries = [("d", some 4)] ∧
      sampleAfter.2.evictions = 2 ∧
      sampleAfter.2.hits + sampleAfter.2.misses = sampleAfter.1.lookUps ∧
      sampleAfter.1.added = sampleAfter.2.size + sampleAfter.2.evictions + sampleAfter.1.dropped ∧
      sampleAfter.2.adds (.set "e" 5) = true ∧
      WithinSize (sampleAfter.2.perform (.set "e" 5)).size sampleAfter.2.settings.size ∧
      sampleAfter.2.adds (.invalidate "d") = false ∧
      (sampleAfter.2.perform (.invalidate "d")).size ≤ sampleAfter.2.size := by
  have hstart : ofSettings? ⟨.int 3, .bool true⟩ = .ok sampleStart := rfl
  have hrun : sampleStart.performAll {} sampleActions = (sampleAfter.1, sampleAfter.2) :=
    Prod.mk.eta.symm
  obtain ⟨hlookUps, hadded, -, hnext⟩ := counts_balance hstart sampleActions hrun
  have hadds : sampleAfter.2.adds (.set "e" 5) = true := by decide +kernel
  have hkeeps : sampleAfter.2.adds (.invalidate "d") = false := by simp [adds]
  exact ⟨hstart, by decide +kernel, by decide +kernel, by decide +kernel, hlookUps, hadded, hadds,
    (hnext _).1 hadds, hkeeps, ((hnext _).2 hkeeps).1⟩

end ModulePath.Cache
