import Mathlib.Data.List.Dedup
import Mathlib.Data.List.DropRight
import ModulePath.Proofs.Cache.Memo

/-!
# The order of use

A run of operations on a cache (`Op`), and beside it what has been done since the cache was last
emptied: which keys were used, and which values were stored (`History`). Used are a key that is
stored, a key that is looked up and found, and a key whose value is computed if need be.

The keys of the cache are the last of the used ones, each at the place of its last use, and every
key has the value that was last stored for it (`Follows`). One operation keeps this
(`Follows.step`), so a whole run does (`Follows.run`), and of the keys that are there only the one
that was used least recently is ever pushed out.
-/

set_option autoImplicit false

namespace ModulePath.Cache

/-! ## Keys in the order of their last use -/

section Keys

variable {κ : Type} {key other : κ} {keys : List κ} {room : Nat}

theorem rtake_of_length_le {n : Nat} (h : keys.length ≤ n) : keys.rtake n = keys := by
  rw [List.rtake, Nat.sub_eq_zero_of_le h, List.drop_zero]

theorem rtake_append_of_le (older : List κ) {n : Nat} (h : n ≤ keys.length) :
    (older ++ keys).rtake n = keys.rtake n := by
  rw [List.rtake, List.rtake, List.length_append, Nat.add_sub_assoc h,
    List.drop_append, List.drop_eq_nil_of_le (Nat.le_add_right _ _), List.nil_append,
    Nat.add_sub_cancel_left]

variable [DecidableEq κ]

/-- Keys in the order of their last use, after one more use. The used key comes last; beside a key
that was not there, only so many others have room. -/
def touch (room : Nat) (key : κ) (keys : List κ) : List κ :=
  (if key ∈ keys then keys.filter (· != key) else keys.rtake room) ++ [key]

/-- The distinct keys of a sequence, each at its last place, after one more key. -/
theorem dedup_concat (uses : List κ) (key : κ) :
    (uses ++ [key]).dedup = uses.dedup.filter (· != key) ++ [key] := by
  induction uses with
  | nil => rfl
  | cons a rest ih =>
    rw [List.cons_append]
    by_cases ha : a ∈ rest
    · rw [List.dedup_cons_of_mem ha, List.dedup_cons_of_mem (List.mem_append_left _ ha), ih]
    · rw [List.dedup_cons_of_notMem ha]
      by_cases hkey : a = key
      · -- the key comes again, at the end, so this place of it does not count
        subst hkey
        rw [List.dedup_cons_of_mem (List.mem_append_right _ (List.mem_singleton_self a)), ih,
          List.filter_cons_of_neg (by simp)]
      · have hnot : a ∉ rest ++ [key] := by simp [ha, hkey]
        rw [List.dedup_cons_of_notMem hnot, ih, List.filter_cons_of_pos (by simpa using hkey),
          List.cons_append]

theorem filter_bne_eq_self (h : key ∉ keys) : keys.filter (· != key) = keys := by
  rw [List.filter_eq_self]
  intro a ha
  exact bne_iff_ne.2 (ne_of_mem_of_not_mem ha h)

/-- The last keys of a sequence change with one more use as if the keys before them were not
there. -/
theorem rtake_concat_filter (hkeys : keys.Nodup) :
    (keys.filter (· != key) ++ [key]).rtake (room + 1) =
      touch room key (keys.rtake (room + 1)) := by
  rw [List.rtake_concat_succ, touch]
  congr 1
  rcases Nat.lt_or_ge room keys.length with hlong | hshort
  · -- the sequence is some older keys and as many as fit
    obtain ⟨older, newer, rfl, hlength⟩ :
        ∃ older newer, keys = older ++ newer ∧ newer.length = room + 1 := by
      refine ⟨keys.take (keys.length - (room + 1)), keys.rtake (room + 1),
        (List.take_append_drop _ _).symm, ?_⟩
      rw [List.rtake, List.length_drop]
      omega
    have hnewer : (older ++ newer).rtake (room + 1) = newer := by
      rw [rtake_append_of_le older (Nat.le_of_eq hlength.symm),
        rtake_of_length_le (Nat.le_of_eq hlength)]
    rw [hnewer, List.filter_append]
    split
    case isTrue hmem =>
      have hnodup : newer.Nodup := (List.nodup_append.1 hkeys).2.1
      have hfilter : (newer.filter (· != key)).length = room := by
        rw [← hnodup.erase_eq_filter, List.length_erase_of_mem hmem, hlength,
          Nat.add_sub_cancel]
      rw [rtake_append_of_le _ (Nat.le_of_eq hfilter.symm),
        rtake_of_length_le (Nat.le_of_eq hfilter)]
    case isFalse hmem =>
      rw [filter_bne_eq_self hmem, rtake_append_of_le _ (hlength ▸ Nat.le_succ room)]
  · -- all keys have room, before and after
    have hfilter : (keys.filter (· != key)).length ≤ room :=
      (List.length_filter_le _ _).trans hshort
    rw [rtake_of_length_le hfilter, rtake_of_length_le (Nat.le_succ_of_le hshort)]
    split
    case isTrue => rfl
    case isFalse hmem => rw [filter_bne_eq_self hmem, rtake_of_length_le hshort]

/-- Only the key that was used least recently is pushed out. -/
theorem head?_of_notMem_touch (hlength : keys.length ≤ room + 1) (hmem : other ∈ keys)
    (hnot : other ∉ touch room key keys) : keys.head? = some other := by
  rw [touch, List.mem_append, List.mem_singleton, not_or] at hnot
  obtain ⟨hnot, hne⟩ := hnot
  split at hnot
  case isTrue =>
    have hkept : other ∈ keys.filter (· != key) := List.mem_filter.2 ⟨hmem, bne_iff_ne.2 hne⟩
    exact absurd hkept hnot
  case isFalse =>
    cases keys with
    | nil => cases hmem
    | cons oldest rest =>
      -- there is room for all keys but the oldest one
      have hrest : rest.length ≤ room := Nat.le_of_succ_le_succ hlength
      rcases List.mem_cons.1 hmem with rfl | hmem
      · rfl
      · have hkept : other ∈ rest.rtake room := by rwa [rtake_of_length_le hrest]
        rcases Nat.lt_or_ge rest.length room with hless | hmore
        · rw [rtake_of_length_le (Nat.succ_le_of_lt hless)] at hnot
          exact absurd (List.mem_cons_of_mem oldest hmem) hnot
        · have hsplit : (oldest :: rest).rtake room = rest.rtake room :=
            rtake_append_of_le [oldest] hmore
          rw [hsplit] at hnot
          exact absurd hkept hnot

end Keys

/-! ## Runs -/

section

variable (κ α : Type)

/-- An operation on a cache of fixed settings. A computation that fails leaves no more than its
look-up, which is `get`; one that goes to the cache itself stands between a `get` and a `set`. -/
inductive Op where
  | get (key : κ)
  | set (key : κ) (v : Option α)
  | getOrCompute (key : κ) (made : Option α)
  | contains (key : κ)
  | len
  | clear

/-- The answer to an operation. -/
inductive Reply where
  | found (v : Option α)
  | stored (r : Except Fault Unit)
  | answered (r : Except Fault (Answer α))
  | told (b : Bool)
  | counted (n : Nat)
  | done

/-- What has been done with a cache since it was last emptied, in order. -/
structure History where
  /-- The keys that were used. -/
  uses : List κ := []
  /-- The values that were stored, with their keys. -/
  stores : List (κ × Option α) := []

end

variable {κ α : Type} [DecidableEq κ]

/-- One operation. -/
def step (c : Cache κ α) : Op κ α → Reply α × Cache κ α
  | .get key => (c.get key).map .found id
  | .set key v => (c.set key v).map .stored id
  | .getOrCompute key made => (c.getOrCompute key made).map .answered id
  | .contains key => (.told (c.contains key), c)
  | .len => (.counted c.size, c)
  | .clear => (.done, c.clear)

/-- An operation ended in a fault. -/
def Reply.IsFault : Reply α → Prop
  | .stored r => ∃ f, r = .error f
  | .answered r => ∃ f, r = .error f
  | _ => False

/-- The keys of a cache, the least recently used first. -/
def keys (c : Cache κ α) : List κ := c.entries.map (·.1)

namespace History

/-- A key is used. -/
def use (h : History κ α) (key : κ) : History κ α := { h with uses := h.uses ++ [key] }

/-- A value is stored, which is a use of its key. -/
def store (h : History κ α) (key : κ) (v : Option α) : History κ α :=
  ⟨h.uses ++ [key], h.stores ++ [(key, v)]⟩

/-- The value that was last stored for a key. -/
def lastStored? (h : History κ α) (key : κ) : Option (Option α) := h.stores.reverse.lookup key

/-- What has been done after one more operation on a cache. -/
def after (h : History κ α) (c : Cache κ α) : Op κ α → History κ α
  | .get key => if c.contains key then h.use key else h
  | .set key v => h.store key v
  | .getOrCompute key made =>
    match (c.getOrCompute key made).1 with
    | .ok ⟨_, true⟩ => h.store key made
    | _ => h.use key
  | .contains _ | .len => h
  | .clear => {}

theorem lastStored?_store_self {h : History κ α} {key : κ} {v : Option α} :
    (h.store key v).lastStored? key = some v := by
  rw [lastStored?, store, List.reverse_concat, List.lookup_cons_self]

theorem lastStored?_store_of_ne {h : History κ α} {key other : κ} {v : Option α}
    (hne : other ≠ key) : (h.store key v).lastStored? other = h.lastStored? other := by
  rw [lastStored?, store, List.reverse_concat, List.lookup_cons, beq_false_of_ne hne]
  rfl

end History

/-- The operations one after another: what has been done, and the cache that is left. -/
def run (c : Cache κ α) (h : History κ α) : List (Op κ α) → History κ α × Cache κ α
  | [] => (h, c)
  | op :: ops => run (c.step op).2 (h.after c op) ops

/-! ## Single operations -/

section

variable {c c' : Cache κ α} {h h' : History κ α} {key : κ} {v made : Option α} {room : Nat}

/-- A cache is in use and holds so many entries beside the one used last. -/
structure Settings.Leaves (s : Settings) (room : Nat) : Prop where
  enabled : s.enabled.truthy = true
  limit : Limit.ofValue s.size = .atMost (room + 1)

/-- The keys that a cache contains are the keys of its entries. -/
theorem contains_iff : c.contains key = true ↔ key ∈ c.keys := by
  unfold Cache.contains Cache.find? Cache.keys
  rw [List.find?_isSome, List.mem_map]
  simp only [beq_iff_eq]

/-- The entries that stay when a key is used and comes last. -/
def kept (c : Cache κ α) (room : Nat) (key : κ) : List (κ × Option α) :=
  if c.contains key then without key c.entries else c.entries.rtake room

/-- A stored key comes last, and the oldest one goes if there is no room. -/
theorem keys_kept (c : Cache κ α) (room : Nat) (key : κ) (v : Option α) :
    (c.kept room key ++ [(key, v)]).map (·.1) = touch room key c.keys := by
  rw [List.map_append, List.map_singleton, touch, kept]
  congr 1
  by_cases hkey : key ∈ c.keys
  · rw [if_pos (contains_iff.2 hkey), if_pos hkey, without, Cache.keys, List.filter_map]
    rfl
  · have hnot : ¬ c.contains key = true := fun h => hkey (contains_iff.1 h)
    rw [if_neg hnot, if_neg hkey, Cache.keys, List.rtake, List.rtake, List.length_map,
      List.map_drop]

/-- None of the entries that stay is that of the key. -/
theorem of_mem_kept {e : κ × Option α} (he : e ∈ c.kept room key) :
    e ∈ c.entries ∧ e.1 ≠ key := by
  unfold kept at he
  split at he
  case isTrue =>
    obtain ⟨hmem, hne⟩ := List.mem_filter.1 he
    exact ⟨hmem, bne_iff_ne.1 hne⟩
  case isFalse hnot =>
    have hmem : e ∈ c.entries := List.mem_of_mem_drop he
    refine ⟨hmem, ?_⟩
    rintro rfl
    exact hnot (contains_iff.2 (List.mem_map_of_mem hmem))

/-- A store replaces the entry of its key, or pushes out the oldest one if there is no room. -/
theorem set_spec (hs : c.settings.Leaves room) (key : κ) (v : Option α) :
    ∃ c', c.set key v = (.ok (), c') ∧ c'.settings = c.settings ∧
      c'.entries = c.kept room key ++ [(key, v)] := by
  have henabled : c.isEnabled = true := hs.enabled
  unfold Cache.set kept Cache.contains
  rw [if_pos henabled]
  cases hfind : c.find? key with
  | some e =>
    obtain ⟨-, rfl⟩ := find?_eq_some hfind
    exact ⟨_, rfl, rfl, rfl⟩
  | none =>
    rw [makeRoom, hs.limit]
    exact ⟨_, rfl, rfl, rfl⟩

/-- A key that is found is moved to the end with its value. -/
theorem get_of_find? (hs : c.settings.Leaves room) {e : κ × Option α} (he : c.find? key = some e) :
    ∃ c', c.get key = (e.2, c') ∧ c'.settings = c.settings ∧
      c'.entries = c.kept room key ++ [(key, e.2)] := by
  have henabled : c.isEnabled = true := hs.enabled
  obtain ⟨-, rfl⟩ := find?_eq_some he
  unfold Cache.get kept Cache.contains
  rw [if_pos henabled, he]
  exact ⟨_, rfl, rfl, rfl⟩

/-- A key that is not found leaves only a count. -/
theorem get_of_find?_eq_none (he : c.find? key = none) :
    ∃ c', c.get key = (none, c') ∧ c'.settings = c.settings ∧ c'.entries = c.entries := by
  unfold Cache.get
  rw [he, ite_self]
  exact ⟨_, rfl, rfl, rfl⟩

/-- What a use of a key keeps is kept when the key is used again. -/
theorem kept_of_entries (hentries : c'.entries = c.kept room key ++ [(key, v)]) :
    c'.kept room key = c.kept room key := by
  have hcontains : c'.contains key = true := by
    rw [contains_iff, Cache.keys, hentries, List.map_append]
    exact List.mem_append_right _ (List.mem_singleton_self key)
  have hothers : without key (c.kept room key) = c.kept room key := by
    rw [without, List.filter_eq_self]
    intro e he
    exact bne_iff_ne.2 (of_mem_kept he).2
  have hlast : without key [(key, v)] = [] := by simp [without]
  rw [kept, if_pos hcontains, hentries, without, List.filter_append, ← without, ← without, hothers,
    hlast, List.append_nil]

/-- Computing a value if need be is a use of the key, which then holds what the call came to: the
value that was there, or the one that was made because there was none. -/
theorem getOrCompute_spec (hs : c.settings.Leaves room) (key : κ) (made : Option α) :
    ∃ a c', c.getOrCompute key made = (.ok a, c') ∧ c'.settings = c.settings ∧
      c'.entries = c.kept room key ++ [(key, a.value)] ∧
      ((a.isNew = false ∧ ∃ w, a.value = some w ∧ c.find? key = some (key, some w)) ∨
        (a.isNew = true ∧ a.value = made ∧ ∀ w, c.find? key ≠ some (key, some w))) := by
  -- a value is made where the look-up gave none, whether it found an entry or not
  have hnew : ∀ c₁, c.get key = (none, c₁) → c₁.settings = c.settings →
      c₁.kept room key = c.kept room key →
        ∃ c', c.getOrCompute key made = (.ok ⟨made, true⟩, c') ∧ c'.settings = c.settings ∧
          c'.entries = c.kept room key ++ [(key, made)] := by
    intro c₁ hget hsettings hkept
    have hnone : (c.get key).1 = none := by rw [hget]
    have hs₁ : c₁.settings.Leaves room := hsettings ▸ hs
    obtain ⟨c', hset, hsettings', hentries⟩ := set_spec hs₁ key made
    rw [getOrCompute_of_none hnone, hget, hset]
    exact ⟨c', rfl, hsettings'.trans hsettings, hkept ▸ hentries⟩
  cases hfind : c.find? key with
  | none =>
    obtain ⟨c₁, hget, hsettings, hentries⟩ := get_of_find?_eq_none hfind
    have hkept : c₁.kept room key = c.kept room key := by
      rw [kept, kept, Cache.contains, Cache.contains, Cache.find?, Cache.find?, hentries]
    obtain ⟨c', hcall, hsettings', hentries'⟩ := hnew c₁ hget hsettings hkept
    have hmissing : ∀ w, (none : Option (κ × Option α)) ≠ some (key, some w) := fun w =>
      (Option.some_ne_none (key, some w)).symm
    exact ⟨_, c', hcall, hsettings', hentries', .inr ⟨rfl, rfl, hmissing⟩⟩
  | some e =>
    obtain ⟨c₁, hget, hsettings, hentries⟩ := get_of_find? hs hfind
    obtain ⟨-, rfl⟩ := find?_eq_some hfind
    obtain ⟨key, _ | w⟩ := e
    · obtain ⟨c', hcall, hsettings', hentries'⟩ :=
        hnew c₁ hget hsettings (kept_of_entries hentries)
      have hvoid : ∀ w, some (key, (none : Option α)) ≠ some (key, some w) := by simp
      exact ⟨_, c', hcall, hsettings', hentries', .inr ⟨rfl, rfl, hvoid⟩⟩
    · have hsome : (c.get key).1 = some w := by rw [hget]
      rw [getOrCompute_of_value hsome, hget]
      exact ⟨_, c₁, rfl, hsettings, hentries, .inl ⟨rfl, w, rfl, rfl⟩⟩

/-! ## The invariant -/

/-- A cache follows what has been done with it: its keys are the last of the used ones, each at its
last place, and each has the value that was last stored for it. -/
structure Follows (room : Nat) (h : History κ α) (c : Cache κ α) : Prop where
  settings : c.settings.Leaves room
  keys : c.keys = h.uses.dedup.rtake (room + 1)
  values : ∀ e ∈ c.entries, h.lastStored? e.1 = some e.2

/-- Without entries there is nothing to have been done. -/
theorem follows_nil (hs : c.settings.Leaves room) (hc : c.entries = []) : Follows room {} c := by
  refine ⟨hs, ?_, ?_⟩
  · rw [Cache.keys, hc, List.dedup_nil, List.rtake_nil, List.map_nil]
  · rw [hc]
    exact List.forall_mem_nil _

/-- What is kept of the keys of a cache are the last of the distinct uses. -/
theorem Follows.keys_touch (hf : Follows room h c) (key : κ) :
    touch room key c.keys = (h.use key).uses.dedup.rtake (room + 1) := by
  rw [History.use, dedup_concat, rtake_concat_filter h.uses.nodup_dedup, hf.keys]

/-- A value that is there is used. -/
theorem Follows.use (hf : Follows room h c) (hsettings : c'.settings = c.settings)
    (hentries : c'.entries = c.kept room key ++ [(key, v)]) (hv : h.lastStored? key = some v) :
    Follows room (h.use key) c' := by
  refine ⟨hsettings ▸ hf.settings, ?_, ?_⟩
  · rw [← hf.keys_touch, Cache.keys, hentries, keys_kept]
  · intro e he
    rw [hentries, List.mem_append, List.mem_singleton] at he
    rcases he with he | rfl
    · exact hf.values e (of_mem_kept he).1
    · exact hv

/-- A value is stored. -/
theorem Follows.store (hf : Follows room h c) (hsettings : c'.settings = c.settings)
    (hentries : c'.entries = c.kept room key ++ [(key, v)]) : Follows room (h.store key v) c' := by
  refine ⟨hsettings ▸ hf.settings, ?_, ?_⟩
  · have huses : (h.store key v).uses = (h.use key).uses := rfl
    rw [huses, ← hf.keys_touch, Cache.keys, hentries, keys_kept]
  · intro e he
    rw [hentries, List.mem_append, List.mem_singleton] at he
    rcases he with he | rfl
    · obtain ⟨hmem, hne⟩ := of_mem_kept he
      rw [History.lastStored?_store_of_ne hne]
      exact hf.values e hmem
    · exact History.lastStored?_store_self

/-- The counts do not matter. -/
theorem Follows.of_eq (hf : Follows room h c) (hsettings : c'.settings = c.settings)
    (hentries : c'.entries = c.entries) : Follows room h c' := by
  refine ⟨hsettings ▸ hf.settings, ?_, ?_⟩
  · rw [Cache.keys, hentries]
    exact hf.keys
  · rw [hentries]
    exact hf.values

/-- A look-up is a use of its key if the key is there, and otherwise none. -/
theorem Follows.get (hf : Follows room h c) (key : κ) :
    Follows room (if c.contains key then h.use key else h) (c.get key).2 := by
  unfold Cache.contains
  cases hfind : c.find? key with
  | none =>
    obtain ⟨c', hget, hsettings, hentries⟩ := get_of_find?_eq_none hfind
    rw [hget]
    exact hf.of_eq hsettings hentries
  | some e =>
    obtain ⟨c', hget, hsettings, hentries⟩ := get_of_find? hf.settings hfind
    obtain ⟨hmem, rfl⟩ := find?_eq_some hfind
    rw [hget]
    exact hf.use hsettings hentries (hf.values e hmem)

/-- A store is a use of its key. -/
theorem Follows.set (hf : Follows room h c) (key : κ) (v : Option α) :
    ∃ c', c.set key v = (.ok (), c') ∧ Follows room (h.store key v) c' := by
  obtain ⟨c', hset, hsettings, hentries⟩ := set_spec hf.settings key v
  exact ⟨c', hset, hf.store hsettings hentries⟩

/-- A computation is a store if it makes a value, and otherwise a use. -/
theorem Follows.getOrCompute (hf : Follows room h c) (key : κ) (made : Option α) :
    ∃ a c', c.getOrCompute key made = (.ok a, c') ∧
      Follows room (if a.isNew then h.store key made else h.use key) c' := by
  obtain ⟨a, c', hcall, hsettings, hentries, hvalue⟩ := getOrCompute_spec hf.settings key made
  refine ⟨a, c', hcall, ?_⟩
  rcases hvalue with ⟨hold, w, hw, hfind⟩ | ⟨hnew, hmade, -⟩
  · have hstored : h.lastStored? key = some a.value :=
      hw ▸ hf.values _ (find?_eq_some hfind).1
    rw [hold]
    exact hf.use hsettings hentries hstored
  · rw [hnew]
    exact hf.store hsettings (hmade ▸ hentries)

/-! ## Any operation -/

variable {op : Op κ α}

/-- No operation is a fault, and after it the cache follows what has been done by then. -/
theorem Follows.step (hf : Follows room h c) (op : Op κ α) :
    Follows room (h.after c op) (c.step op).2 ∧ ¬ (c.step op).1.IsFault := by
  cases op with
  | get key => exact ⟨hf.get key, id⟩
  | set key v =>
    obtain ⟨c', hset, hf'⟩ := hf.set key v
    simp only [Cache.step, hset]
    exact ⟨hf', nofun⟩
  | getOrCompute key made =>
    obtain ⟨⟨value, isNew⟩, c', hcompute, hf'⟩ := hf.getOrCompute key made
    simp only [Cache.step, History.after, hcompute]
    cases isNew with
    | true => exact ⟨hf', nofun⟩
    | false => exact ⟨hf', nofun⟩
  | contains key => exact ⟨hf, id⟩
  | len => exact ⟨hf, id⟩
  | clear => exact ⟨follows_nil hf.settings rfl, id⟩

/-- The induction is on the operations that are left. -/
theorem Follows.run (hf : Follows room h c) (ops : List (Op κ α)) :
    Follows room (c.run h ops).1 (c.run h ops).2 := by
  induction ops generalizing h c with
  | nil => exact hf
  | cons op ops ih => exact ih (hf.step op).1

/-- Unless the cache is emptied, an operation is the use of one key or of none. -/
theorem History.uses_after (hop : op ≠ .clear) :
    (h.after c op).uses = h.uses ∨ ∃ key, (h.after c op).uses = (h.use key).uses := by
  cases op with
  | get key =>
    rw [History.after]
    split
    case isTrue => exact .inr ⟨key, rfl⟩
    case isFalse => exact .inl rfl
  | set key v => exact .inr ⟨key, rfl⟩
  | getOrCompute key made =>
    rw [History.after]
    split
    case h_1 => exact .inr ⟨key, rfl⟩
    case h_2 => exact .inr ⟨key, rfl⟩
  | contains key => exact .inl rfl
  | len => exact .inl rfl
  | clear => exact absurd rfl hop

/-- A cache never has more keys than its size. -/
theorem Follows.length_keys_le (hf : Follows room h c) : c.keys.length ≤ room + 1 := by
  rw [hf.keys, List.rtake, List.length_drop]
  omega

/-- A key that an operation pushes out is the one that was used least recently. -/
theorem Follows.head?_of_pushedOut (hf : Follows room h c) (hop : op ≠ .clear)
    (hmem : key ∈ c.keys) (hgone : key ∉ (c.step op).2.keys) : c.keys.head? = some key := by
  obtain ⟨hf', -⟩ := hf.step op
  rw [hf'.keys] at hgone
  rcases History.uses_after (h := h) (c := c) hop with huses | ⟨used, huses⟩
  · rw [huses, ← hf.keys] at hgone
    exact absurd hmem hgone
  · rw [huses, ← hf.keys_touch] at hgone
    exact head?_of_notMem_touch hf.length_keys_le hmem hgone

/-- A cache of a positive size that is in use can be made, and it follows its empty history. -/
theorem exists_follows {n : Nat} {enabled : Value} (hn : 0 < n) (henabled : enabled.truthy = true) :
    ∃ c : Cache κ α, ofSettings? ⟨.int n, enabled⟩ = .ok c ∧ Follows (n - 1) {} c := by
  obtain ⟨room, rfl⟩ : ∃ room, n = room + 1 := ⟨n - 1, by omega⟩
  have hcheck : (Settings.mk (.int (room + 1 : Nat)) enabled).check = .ok () := by
    rw [Settings.check_eq_ok_iff]
    exact Int.natCast_pos.2 hn
  refine ⟨{ settings := ⟨.int (room + 1 : Nat), enabled⟩ }, ?_, ?_⟩
  · rw [ofSettings?, hcheck]
    rfl
  · exact follows_nil ⟨henabled, rfl⟩ rfl

end

/-! ## All runs -/

/-- After any run of a cache of fixed size, its keys from the least recently used on are the last of
the distinct keys that were used since it was last emptied, each at its last use, and each has the
value that was last stored for it. No key stands twice, there are never more than the size, no
operation is a fault, and a key that is pushed out is the one that was used least recently. -/
theorem keys_run {n : Nat} {enabled : Value} (hn : 0 < n) (henabled : enabled.truthy = true) :
    ∃ c : Cache κ α, ofSettings? ⟨.int n, enabled⟩ = .ok c ∧
      ∀ (ops : List (Op κ α)) (h : History κ α) (c' : Cache κ α), c.run {} ops = (h, c') →
        c'.keys = h.uses.dedup.rtake n ∧
        (∀ e ∈ c'.entries, h.lastStored? e.1 = some e.2) ∧
        c'.keys.Nodup ∧ c'.size ≤ n ∧
        ∀ op, ¬ (c'.step op).1.IsFault ∧
          (op ≠ .clear →
            ∀ key ∈ c'.keys, key ∉ (c'.step op).2.keys → c'.keys.head? = some key) := by
  obtain ⟨c, hc, hstart⟩ : ∃ c : Cache κ α, ofSettings? ⟨.int n, enabled⟩ = .ok c ∧
      Follows (n - 1) {} c := exists_follows hn henabled
  refine ⟨c, hc, fun ops h c' hrun => ?_⟩
  have hroom : n - 1 + 1 = n := Nat.sub_add_cancel hn
  -- the run keeps the cache in step with its history; the rest is read off that
  have hf : Follows (n - 1) h c' := by
    have hf := hstart.run ops
    rwa [hrun] at hf
  have hkeys : c'.keys = h.uses.dedup.rtake n := hroom ▸ hf.keys
  refine ⟨hkeys, hf.values, ?_, ?_, ?_⟩
  · rw [hkeys, List.rtake]
    exact h.uses.nodup_dedup.sublist (List.drop_sublist _ _)
  · have hlength : c'.keys.length ≤ n := hroom ▸ hf.length_keys_le
    rwa [Cache.keys, List.length_map] at hlength
  · intro op
    refine ⟨(hf.step op).2, ?_⟩
    intro hop key hmem hgone
    exact hf.head?_of_pushedOut hop hmem hgone

/-- Operations on a cache for two keys: one is looked up in between, one gets its value late. -/
def sampleOps : List (Op String Nat) :=
  [.set "a" (some 1), .getOrCompute "b" none, .get "a", .set "c" (some 3), .contains "a", .get "b",
    .getOrCompute "c" (some 4)]

theorem keys_sampleOps :
    0 < 2 ∧ (Value.bool true).truthy = true ∧
      ∃ c : Cache String Nat, ofSettings? ⟨.int 2, .bool true⟩ = .ok c ∧
        (c.run {} sampleOps).2.entries = [("a", some 1), ("c", some 3)] ∧
        (c.run {} sampleOps).2.keys = (c.run {} sampleOps).1.uses.dedup.rtake 2 := by
  obtain ⟨c, hc, hruns⟩ := @keys_run String Nat _ 2 (.bool true) Nat.two_pos rfl
  obtain rfl : { settings := ⟨.int 2, .bool true⟩ } = c := Except.ok.inj hc
  refine ⟨Nat.two_pos, rfl, _, rfl, by decide +kernel, ?_⟩
  exact (hruns sampleOps _ _ rfl).1

end ModulePath.Cache
