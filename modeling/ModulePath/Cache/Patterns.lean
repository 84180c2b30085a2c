import ModulePath.Cache.Basic
import ModulePath.Glob.Checked

/-!
# The pattern cache

Patterns of globs, kept by the text of the glob.
-/

set_option autoImplicit false

namespace ModulePath

/-- A cache of patterns. -/
abbrev PatternCache := Cache String Glob.Pattern

namespace PatternCache

/-- Count a look-up that finds nothing. -/
def miss (c : PatternCache) : PatternCache := { c with misses := c.misses + 1 }

/-- The pattern of a glob. -/
def pattern (c : PatternCache) (glob : String) :
    Except Fault Glob.Pattern × PatternCache :=
  let made := Glob.Pattern.ofGlob glob
  match Cache.getOrCompute c glob (some made) with
  | (.ok a, c) => (.ok (a.value.getD made), c)
  | (.error f, c) => (.error f, c)

/-- The pattern of loose data. Nothing is refused at once. What is no text is no glob, and that is
found only after it was looked up. -/
def patternOf? (c : PatternCache) (v : Value) : Outcome Glob.Error Glob.Pattern × PatternCache :=
  match v with
  | .str glob =>
    match c.pattern glob with
    | (.ok p, c) => (.ok p, c)
    | (.error f, c) => (Outcome.fault f, c)
  | .null => (Outcome.refuse .missing, c)
  | v => (Outcome.fault .kind, if Cache.isEnabled c && !v.hashable then c else c.miss)

end PatternCache

end ModulePath
