import Mathlib.Data.List.Forall2
import ModulePath.Cache.Patterns
import ModulePath.Filter.Basic
import ModulePath.Proofs.Cache.Memo

/-!
# Runs of the pattern cache

The pattern cache is shared by all globs that are compiled, and it is looked into, emptied, switched
on and off, resized and replaced while they are. A run is a list of such operations (`Op`) with the
answers that they give (`replies`). No operation makes the cache hold the pattern of another glob
(`step_remembers`), so in every run a glob compiles to what it would without any cache
(`replies_admitted`).
-/

set_option autoImplicit false

namespace ModulePath.PatternCache

/-! ## Runs -/

/-- An operation on the cache that is in use. -/
inductive Op where
  | compile (glob : String)
  | get (key : String)
  | contains (key : String)
  | invalidate (key : String)
  | clear
  | stats
  | enable (enabled : Value)
  | resize (size : Value) (positive : Cache.IsPositive size)
  /-- An empty cache takes the place of the one in use, if it can have the settings. -/
  | renew (settings : Cache.Settings)

/-- The answer to an operation. -/
inductive Reply where
  | compiled (r : Except Fault Glob.Pattern)
  | found (p : Option Glob.Pattern)
  | told (b : Bool)
  | counts (size hits misses evictions : Nat) (hitRate : Double)
  | done

/-- One operation. -/
def step (c : PatternCache) : Op → Reply × PatternCache
  | .compile glob => (c.pattern glob).map .compiled id
  | .get key => (Cache.get c key).map .found id
  | .contains key => (.told (Cache.contains c key), c)
  | .invalidate key => (Cache.invalidate c key).map .told id
  | .clear => (.done, Cache.clear c)
  | .stats => (.counts (Cache.size c) c.hits c.misses c.evictions (Cache.hitRate c), c)
  | .enable enabled => (.done, Cache.enable c enabled)
  | .resize size _ => (.done, Cache.resize c size)
  | .renew settings =>
    match Cache.ofSettings? settings with
    | .ok fresh => (.done, fresh)
    | .error _ => (.done, c)

/-- The answers to operations, one after another. -/
def replies (c : PatternCache) : List Op → List Reply
  | [] => []
  | op :: ops => (c.step op).1 :: replies (c.step op).2 ops

/-! ## Answers that owe nothing to the cache -/

/-- A pattern is the one that a glob has by itself: the same pattern, the same expression, the same
paths. -/
structure IsPatternOf (glob : String) (p : Glob.Pattern) : Prop where
  uncached : Glob.ofValue? (.str glob) = .ok p
  source : p.source = (Glob.Pattern.ofGlob glob).source
  accepts : ∀ path, p.accepts path = (Filter.glob glob).accepts path

/-- The answers that an operation may give. Compiling gives the pattern of the glob; looking a glob
up gives this pattern or none. -/
def Op.Admits : Op → Reply → Prop
  | .compile glob, r => ∃ p, r = .compiled (.ok p) ∧ IsPatternOf glob p
  | .get glob, r => ∃ found, r = .found found ∧ ∀ p ∈ found, IsPatternOf glob p
  | _, _ => True

theorem isPatternOf_ofGlob (glob : String) : IsPatternOf glob (.ofGlob glob) where
  uncached := rfl
  source := rfl
  accepts path := by rw [Filter.accepts]

variable {c : PatternCache}

/-- A cache that remembers right patterns answers with the pattern of the glob, and goes on
remembering right ones. -/
theorem pattern_eq (h : Cache.Remembers Glob.Pattern.ofGlob c) (glob : String) :
    ∃ c', c.pattern glob = (.ok (.ofGlob glob), c') ∧
      Cache.Remembers Glob.Pattern.ofGlob c' := by
  obtain ⟨isNew, c', hanswer, h'⟩ := h.getOrCompute glob
  refine ⟨c', ?_, h'⟩
  unfold pattern
  simp only [hanswer, Option.getD_some]

/-- What one operation does: the cache goes on remembering, and the answer is admitted. -/
theorem step_remembers (h : Cache.Remembers Glob.Pattern.ofGlob c) (op : Op) :
    op.Admits (c.step op).1 ∧ Cache.Remembers Glob.Pattern.ofGlob (c.step op).2 := by
  cases op with
  | compile glob =>
    obtain ⟨c', hpattern, h'⟩ := pattern_eq h glob
    rw [step, hpattern]
    exact ⟨⟨_, rfl, isPatternOf_ofGlob glob⟩, h'⟩
  | get key =>
    obtain ⟨hvalue, h'⟩ := h.get key
    refine ⟨⟨(Cache.get c key).1, rfl, fun p hp => ?_⟩, h'⟩
    rcases hvalue with hnone | hsome
    · simp [hnone] at hp
    · obtain rfl : Glob.Pattern.ofGlob key = p := by simpa [hsome] using hp
      exact isPatternOf_ofGlob key
  | contains _ => exact ⟨trivial, h⟩
  | invalidate key => exact ⟨trivial, h.invalidate key⟩
  | clear => exact ⟨trivial, h.clear⟩
  | stats => exact ⟨trivial, h⟩
  | enable enabled => exact ⟨trivial, h.enable enabled⟩
  | resize size positive => exact ⟨trivial, h.resize positive⟩
  | renew settings =>
    refine ⟨trivial, ?_⟩
    rw [step]
    -- settings that are refused leave the cache as it is
    cases hfresh : (Cache.ofSettings? settings : Outcome Cache.Settings.Error PatternCache) with
    | ok fresh => exact Cache.remembers_of_ofSettings? hfresh
    | error e => exact h

/-- The answers of a run, by induction on the operations with the step as its only case. -/
theorem replies_of_remembers (h : Cache.Remembers Glob.Pattern.ofGlob c) (ops : List Op) :
    List.Forall₂ Op.Admits ops (c.replies ops) := by
  induction ops generalizing c with
  | nil => exact .nil
  | cons op ops ih =>
    obtain ⟨hadmits, h'⟩ := step_remembers h op
    exact .cons hadmits (ih h')

/-- From any settings on, in use or not, every glob compiles to its own pattern, whatever else is
done with the cache. -/
theorem replies_admitted {settings : Cache.Settings}
    (h : Cache.ofSettings? settings = .ok c) (ops : List Op) :
    List.Forall₂ Op.Admits ops (c.replies ops) :=
  replies_of_remembers (Cache.remembers_of_ofSettings? h) ops

/-- An empty cache for one pattern. -/
def smallCache : PatternCache := { settings := ⟨.int 1, .bool true⟩ }

/-- Patterns are pushed out, the cache is switched off and on, resized and replaced. -/
def sampleOps : List Op :=
  [.compile "a/**", .compile "b?", .get "a/**", .get "b?", .enable (.bool false), .compile "c/",
    .enable (.bool true), .resize (.int 2) (by decide), .compile "c/", .compile "b?",
    .invalidate "b?", .renew ⟨.int 0, .bool true⟩, .renew ⟨.int 3, .bool true⟩, .compile "a/**"]

theorem replies_sampleOps :
    Cache.ofSettings? ⟨.int 1, .bool true⟩ = .ok smallCache ∧
      List.Forall₂ Op.Admits sampleOps (smallCache.replies sampleOps) := by
  have hcache : Cache.ofSettings? ⟨.int 1, .bool true⟩ = .ok smallCache := rfl
  exact ⟨hcache, replies_admitted hcache sampleOps⟩

end ModulePath.PatternCache
