import Mathlib.Data.List.Forall2
import ModulePath.Cache.Patterns
import ModulePath.Proofs.Cache.Presence

/-!
# Smaller and larger caches

Two caches of different sizes go through calls for the same keys, each call computing its value if
need be. What the smaller one holds is then always the part of the larger one that was used last
(`Within`): a call keeps this, whether its key is in both caches, in the larger one only or in
neither, because using a key and leaving the older keys out may be done in either order
(`rtake_touch`). A key in the smaller cache is in the larger one too, so a larger cache makes no
value anew that a smaller one finds, and globs are compiled no more often with it
(`larger_cache_makes_no_more`).
-/

set_option autoImplicit false

namespace ModulePath.Cache

/-! ## Keys -/

section Keys

variable {κ : Type} {keys : List κ} {key : κ} {room more : Nat}

theorem rtake_rtake {n m : Nat} (h : n ≤ m) : (keys.rtake m).rtake n = keys.rtake n := by
  rw [List.rtake_eq_reverse_take_reverse, List.rtake_eq_reverse_take_reverse,
    List.rtake_eq_reverse_take_reverse, List.reverse_reverse, List.take_take, Nat.min_eq_left h]

theorem length_rtake_le (keys : List κ) (n : Nat) : (keys.rtake n).length ≤ n := by
  rw [List.rtake, List.length_drop]
  omega

variable [DecidableEq κ]

/-- Using a key leaves the keys of a sequence that were used last and fit. -/
theorem touch_eq_rtake (hkeys : keys.Nodup) (hlength : keys.length ≤ room + 1) :
    touch room key keys = (keys.filter (· != key) ++ [key]).rtake (room + 1) := by
  rw [rtake_concat_filter hkeys, rtake_of_length_le hlength]

/-- The keys used last change with one more use as if there were no older ones. -/
theorem rtake_touch (hkeys : keys.Nodup) (hlength : keys.length ≤ more + 1) (h : room ≤ more) :
    (touch more key keys).rtake (room + 1) = touch room key (keys.rtake (room + 1)) := by
  rw [touch_eq_rtake hkeys hlength, rtake_rtake (Nat.succ_le_succ h), rtake_concat_filter hkeys]

end Keys

/-! ## One cache -/

section

variable {κ α : Type} [DecidableEq κ] {c : Cache κ α} {room : Nat}

/-- A cache is in use, has a size and holds values only. -/
structure Filled (room : Nat) (c : Cache κ α) : Prop where
  settings : c.settings.Leaves room
  stores : Stores (· ≠ none) c
  length : c.keys.length ≤ room + 1

omit [DecidableEq κ] in
/-- A new cache is filled with no calls. -/
theorem filled_of_ofSettings? {s : Settings} (hs : s.Leaves room) (h : ofSettings? s = .ok c) :
    Filled room c := by
  obtain rfl := eq_of_ofSettings? h
  exact ⟨hs, stores_nil rfl, Nat.zero_le _⟩

/-- What is kept when an entry is stored keeps its order. -/
theorem kept_sublist (c : Cache κ α) (room : Nat) (key : κ) :
    List.Sublist (c.kept room key) c.entries := by
  unfold kept
  split
  · exact List.filter_sublist
  · exact List.drop_sublist _ _

/-- A cache that kept what a use of a key keeps, and has a value for the key. -/
theorem Filled.of_kept (hc : Filled room c) {c' : Cache κ α} {key : κ} {w : α}
    (hsettings : c'.settings = c.settings)
    (hentries : c'.entries = c.kept room key ++ [(key, some w)]) :
    Filled room c' ∧ c'.keys = touch room key c.keys := by
  have hkeys : c'.keys = touch room key c.keys := by
    rw [Cache.keys, hentries, keys_kept]
  have hkey : key ∉ (c.kept room key).map (·.1) := by
    rw [List.mem_map]
    rintro ⟨e, he, heq⟩
    exact (of_mem_kept he).2 heq
  have hlength : c'.keys.length ≤ room + 1 := by
    rw [hkeys, touch_eq_rtake hc.stores.distinct hc.length]
    exact length_rtake_le _ _
  have hstores : Stores (· ≠ none) c' :=
    hc.stores.of_concat (kept_sublist c room key) hkey (Option.some_ne_none w) hentries
  exact ⟨⟨hsettings ▸ hc.settings, hstores, hlength⟩, hkeys⟩

/-- A call answers with a value, which is made anew if the key was not there, and is a use of the
key. -/
theorem Filled.getOrCompute (hc : Filled room c) (key : κ) (v : α) :
    ∃ w c', c.getOrCompute key (some v) = (.ok ⟨some w, !c.contains key⟩, c') ∧
      Filled room c' ∧ c'.keys = touch room key c.keys := by
  obtain ⟨⟨value, isNew⟩, c', hcall, hsettings, hentries, hvalue⟩ :=
    getOrCompute_spec hc.settings key (some v)
  -- an entry that is there holds a value, so only a key that is not there has one made
  have hcontains : c.contains key = true ↔ ∃ w, c.find? key = some (key, some w) := by
    rw [← hc.stores.holdsValue_iff, hc.stores.holdsValue_of_not_admitted (not_not_intro rfl)]
  rcases hvalue with ⟨rfl, w, rfl, hfind⟩ | ⟨rfl, rfl, hnone⟩
  · rw [hcontains.2 ⟨w, hfind⟩]
    exact ⟨w, c', hcall, hc.of_kept hsettings hentries⟩
  · have hmissing : c.contains key = false :=
      Bool.eq_false_iff.2 (mt hcontains.1 (not_exists.2 hnone))
    rw [hmissing]
    exact ⟨v, c', hcall, hc.of_kept hsettings hentries⟩

/-- Calls one after another, each for a value that is made if need be: what they come to, and the
cache that is left. -/
def computeAll (c : Cache κ α) : List (κ × α) → List (Except Fault (Answer α)) × Cache κ α
  | [] => ([], c)
  | (key, v) :: calls =>
    let r := c.getOrCompute key (some v)
    let rest := computeAll r.2 calls
    (r.1 :: rest.1, rest.2)

/-- Calls whose values were made count as misses, and the others as hits. -/
theorem Filled.counts_computeAll (hc : Filled room c) (calls : List (κ × α)) :
    (c.computeAll calls).2.hits + (c.computeAll calls).1.countP wasMade =
        c.hits + (c.computeAll calls).1.length ∧
      (c.computeAll calls).2.misses = c.misses + (c.computeAll calls).1.countP wasMade := by
  induction calls generalizing c with
  | nil => exact ⟨rfl, rfl⟩
  | cons call calls ih =>
    obtain ⟨key, v⟩ := call
    obtain ⟨w, c', hcall, hc', -⟩ := hc.getOrCompute key v
    obtain ⟨hhits, hmisses⟩ := counts_getOrCompute c key (some v)
    obtain ⟨hgetHits, hgetMisses⟩ := counts_get c key
    obtain ⟨ihHits, ihMisses⟩ := ih hc'
    have hon : c.isEnabled = true := hc.settings.enabled
    rw [hgetHits, hcall, hon, Bool.true_and] at hhits
    rw [hgetMisses, hcall, hon, Bool.true_and] at hmisses
    dsimp only at hhits hmisses
    simp only [computeAll, hcall, List.countP_cons, wasMade_ok, List.length_cons]
    -- a call is a hit or makes its value, and is counted once either way
    cases hkey : c.contains key with
    | true =>
      simp only [hkey, if_true] at hhits hmisses
      simp only [Bool.not_true, Bool.false_eq_true, if_false]
      omega
    | false =>
      simp only [hkey, Bool.false_eq_true, if_false] at hhits hmisses
      simp only [Bool.not_false, if_true]
      omega

end

/-! ## Two caches -/

section

variable {κ α β : Type} [DecidableEq κ] {c : Cache κ α} {d : Cache κ β} {room more : Nat}

/-- The keys of one cache are the ones that were used last in another one. -/
structure Within (room more : Nat) (c : Cache κ α) (d : Cache κ β) : Prop where
  small : Filled room c
  large : Filled more d
  keys : c.keys = d.keys.rtake (room + 1)

omit [DecidableEq κ] in
/-- Caches without entries are within each other. -/
theorem within_of_ofSettings? {s t : Settings} (hs : s.Leaves room) (ht : t.Leaves more)
    (hc : ofSettings? s = .ok c) (hd : ofSettings? t = .ok d) : Within room more c d := by
  refine ⟨filled_of_ofSettings? hs hc, filled_of_ofSettings? ht hd, ?_⟩
  obtain rfl := eq_of_ofSettings? hc
  obtain rfl := eq_of_ofSettings? hd
  rw [Cache.keys, Cache.keys, List.map_nil, List.map_nil, List.rtake_nil]

/-- A key that the smaller cache has, the larger one has. -/
theorem Within.contains (h : Within room more c d) {key : κ} (hkey : c.contains key = true) :
    d.contains key = true := by
  rw [contains_iff, h.keys] at hkey
  exact contains_iff.2 (List.mem_of_mem_drop hkey)

/-- Two calls that both come to a value, of which the second had none made if the first had not. -/
def FoundToo (r : Except Fault (Answer α)) (r' : Except Fault (Answer β)) : Prop :=
  ∃ v isNew w isNew', r = .ok ⟨some v, isNew⟩ ∧ r' = .ok ⟨some w, isNew'⟩ ∧
    (isNew = false → isNew' = false)

/-- One call for the same key in both caches. -/
theorem Within.getOrCompute (h : Within room more c d) (hroom : room ≤ more) (key : κ) (v : α)
    (w : β) :
    Within room more (c.getOrCompute key (some v)).2 (d.getOrCompute key (some w)).2 ∧
      FoundToo (c.getOrCompute key (some v)).1 (d.getOrCompute key (some w)).1 := by
  obtain ⟨v', c', hsmall, hc', hkeys⟩ := h.small.getOrCompute key v
  obtain ⟨w', d', hlarge, hd', hkeys'⟩ := h.large.getOrCompute key w
  rw [hsmall, hlarge]
  refine ⟨⟨hc', hd', ?_⟩, v', _, w', _, rfl, rfl, ?_⟩
  · rw [hkeys, hkeys', h.keys, rtake_touch h.large.stores.distinct h.large.length hroom]
  · intro hold
    have hkey : c.contains key = true := by simpa using hold
    rw [h.contains hkey]
    rfl

/-- Calls for the same keys in both caches, by induction on the calls. -/
theorem Within.computeAll (h : Within room more c d) (hroom : room ≤ more)
    {calls : List (κ × α)} {calls' : List (κ × β)} (hkeys : calls.map (·.1) = calls'.map (·.1)) :
    Within room more (c.computeAll calls).2 (d.computeAll calls').2 ∧
      List.Forall₂ FoundToo (c.computeAll calls).1 (d.computeAll calls').1 := by
  induction calls generalizing c d calls' with
  | nil =>
    obtain rfl : calls' = [] := List.map_eq_nil_iff.1 hkeys.symm
    exact ⟨h, .nil⟩
  | cons call calls ih =>
    obtain ⟨key, v⟩ := call
    cases calls' with
    | nil => cases hkeys
    | cons call' calls' =>
      obtain ⟨key', w⟩ := call'
      obtain ⟨rfl, hrest⟩ := List.cons.inj hkeys
      obtain ⟨hwithin, hfound⟩ := h.getOrCompute hroom key v w
      obtain ⟨hwithin', hfound'⟩ := ih hwithin hrest
      exact ⟨hwithin', .cons hfound hfound'⟩

/-- If every key that the smaller cache finds is found in the larger one, the larger makes no
more. -/
theorem countP_wasMade_le {rs : List (Except Fault (Answer α))}
    {rs' : List (Except Fault (Answer β))} (h : List.Forall₂ FoundToo rs rs') :
    rs'.countP wasMade ≤ rs.countP wasMade := by
  induction h with
  | nil => exact Nat.le_refl 0
  | cons hfound _ ih =>
    obtain ⟨v, isNew, w, isNew', rfl, rfl, hnew⟩ := hfound
    rw [List.countP_cons, List.countP_cons, wasMade_ok, wasMade_ok]
    refine Nat.add_le_add ih ?_
    cases isNew with
    | true =>
      cases isNew' with
      | true => exact Nat.le_refl 1
      | false => exact Nat.zero_le 1
    | false =>
      rw [hnew rfl]

end

end ModulePath.Cache

/-! ## Patterns -/

namespace ModulePath.PatternCache

open Cache (wasMade)

/-- The calls in which some globs are compiled. -/
def callsFor (globs : List String) : List (String × Glob.Pattern) :=
  globs.map fun glob => (glob, .ofGlob glob)

/-- How many patterns are made when globs are compiled one after another. -/
def compilations (c : PatternCache) : List String → Nat
  | [] => 0
  | glob :: globs =>
    let isMade := wasMade (Cache.getOrCompute c glob (some (.ofGlob glob))).1
    (if isMade then 1 else 0) + compilations (c.pattern glob).2 globs

/-- Compiling a glob leaves the cache that the call for it leaves. -/
theorem snd_pattern (c : PatternCache) (glob : String) :
    (c.pattern glob).2 = (Cache.getOrCompute c glob (some (.ofGlob glob))).2 := by
  unfold pattern
  dsimp only
  generalize Cache.getOrCompute c glob (some (Glob.Pattern.ofGlob glob)) = called
  obtain ⟨r, c'⟩ := called
  cases r with
  | ok a => rfl
  | error f => rfl

/-- The compilations of a run are the values that its calls make. -/
theorem compilations_eq (c : PatternCache) (globs : List String) :
    c.compilations globs = (Cache.computeAll c (callsFor globs)).1.countP wasMade := by
  induction globs generalizing c with
  | nil => rfl
  | cons glob globs ih =>
    have hcalls : callsFor (glob :: globs) = (glob, .ofGlob glob) :: callsFor globs := rfl
    rw [compilations, snd_pattern, ih, hcalls, Cache.computeAll, List.countP_cons, Nat.add_comm]

end ModulePath.PatternCache

/-! ## All runs -/

namespace ModulePath.Cache

/-- Two empty caches in use, the second at least as large as the first, go through calls for the
same keys, with whatever values. After any calls the keys of the smaller one, in the order of their
last use, are the last ones of the larger one, so each key that a next call finds in the smaller
cache is found in the larger one. Every call comes to a value in both, and if the smaller cache had
it, so had the larger one. So a larger cache counts no fewer hits and no more misses, and compiles
globs no more often. -/
theorem larger_cache_makes_no_more {s t : Settings} {room more : Nat} (hs : s.Leaves room)
    (ht : t.Leaves more) (hroom : room ≤ more) :
    (∀ {κ α β : Type} [DecidableEq κ] {c : Cache κ α} {d : Cache κ β},
      ofSettings? s = .ok c → ofSettings? t = .ok d →
        ∀ (calls : List (κ × α)) (calls' : List (κ × β)), calls.map (·.1) = calls'.map (·.1) →
          (c.computeAll calls).2.keys = (d.computeAll calls').2.keys.rtake (room + 1) ∧
          (∀ key, (c.computeAll calls).2.contains key = true →
            (d.computeAll calls').2.contains key = true) ∧
          List.Forall₂ FoundToo (c.computeAll calls).1 (d.computeAll calls').1 ∧
          (c.computeAll calls).2.hits ≤ (d.computeAll calls').2.hits ∧
          (d.computeAll calls').2.misses ≤ (c.computeAll calls).2.misses) ∧
    (∀ {c d : PatternCache}, ofSettings? s = .ok c → ofSettings? t = .ok d →
      ∀ globs : List String, d.compilations globs ≤ c.compilations globs) := by
  refine ⟨?_, ?_⟩
  · intro κ α β _ c d hc hd calls calls' hkeys
    have hstart : Within room more c d := within_of_ofSettings? hs ht hc hd
    obtain ⟨hwithin, hfound⟩ := hstart.computeAll hroom hkeys
    obtain ⟨hhits, hmisses⟩ := hstart.small.counts_computeAll calls
    obtain ⟨hhits', hmisses'⟩ := hstart.large.counts_computeAll calls'
    obtain ⟨hc₀, hc₁⟩ : c.hits = 0 ∧ c.misses = 0 := by
      rw [eq_of_ofSettings? hc]
      exact ⟨rfl, rfl⟩
    obtain ⟨hd₀, hd₁⟩ : d.hits = 0 ∧ d.misses = 0 := by
      rw [eq_of_ofSettings? hd]
      exact ⟨rfl, rfl⟩
    have hmade := countP_wasMade_le hfound
    have hlength := hfound.length_eq
    refine ⟨hwithin.keys, fun key => hwithin.contains, hfound, ?_, ?_⟩
    · -- each call is a hit or a miss
      omega
    · omega
  · intro c d hc hd globs
    have hstart : Within room more c d := within_of_ofSettings? hs ht hc hd
    rw [PatternCache.compilations_eq, PatternCache.compilations_eq]
    exact countP_wasMade_le (hstart.computeAll hroom rfl).2

/-- Keys with which a cache for two entries and one for three find different ones. -/
def sampleCalls : List (String × Nat) :=
  [("a", 1), ("b", 2), ("c", 3), ("a", 4), ("b", 5), ("d", 6), ("a", 7)]

/-- The larger cache finds three of the keys again, of which the smaller one finds none. -/
theorem larger_cache_sampleCalls :
    (Settings.mk (.int 2) (.bool true)).Leaves 1 ∧ (Settings.mk (.int 3) (.bool true)).Leaves 2 ∧
      ∃ c d : Cache String Nat,
        ofSettings? ⟨.int 2, .bool true⟩ = .ok c ∧ ofSettings? ⟨.int 3, .bool true⟩ = .ok d ∧
        (c.computeAll sampleCalls).2.keys = ["d", "a"] ∧
        (d.computeAll sampleCalls).2.keys = ["b", "d", "a"] ∧
        (c.computeAll sampleCalls).2.keys = (d.computeAll sampleCalls).2.keys.rtake 2 ∧
        (d.computeAll sampleCalls).2.misses ≤ (c.computeAll sampleCalls).2.misses ∧
        (c.computeAll sampleCalls).2.misses = 7 ∧ (d.computeAll sampleCalls).2.misses = 4 := by
  have hs : (Settings.mk (.int 2) (.bool true)).Leaves 1 := ⟨rfl, rfl⟩
  have ht : (Settings.mk (.int 3) (.bool true)).Leaves 2 := ⟨rfl, rfl⟩
  obtain ⟨hruns, -⟩ := larger_cache_makes_no_more hs ht (by decide)
  obtain ⟨hkeys, -, -, -, hmisses⟩ :=
    @hruns String Nat Nat _ _ _ rfl rfl sampleCalls sampleCalls rfl
  exact ⟨hs, ht, _, _, rfl, rfl, by decide, by decide, hkeys, hmisses, by decide, by decide⟩

end ModulePath.Cache
