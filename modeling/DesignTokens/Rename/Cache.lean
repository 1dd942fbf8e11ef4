import DesignTokens.Rename.Pattern

/-!
# The store of compiled patterns

A bounded store of patterns that have been compiled. When it is full the pattern that has not been
asked for the longest makes room. A pattern that does not compile is not stored.
-/

namespace DesignTokens

/-- A store of compiled patterns, the one asked for last in front, with counts of the requests. -/
structure GlobCache where
  entries : List (String × List GlobPart) := []
  hits : Nat := 0
  misses : Nat := 0

namespace GlobCache

/-- How many patterns the store holds at most. -/
def capacity : Nat := 256

/-- Compiles a pattern, or takes it from the store. -/
def compile (cache : GlobCache) (pattern : String) :
    GlobCache × Except Fault (List GlobPart) :=
  match cache.entries.lookup pattern with
  | some parts =>
    let others := cache.entries.filter fun e => e.1 != pattern
    ({ cache with entries := (pattern, parts) :: others, hits := cache.hits + 1 }, .ok parts)
  | none =>
    let cache := { cache with misses := cache.misses + 1 }
    match Glob.compile pattern with
    | .ok parts =>
      ({ cache with entries := ((pattern, parts) :: cache.entries).take capacity }, .ok parts)
    | .error fault => (cache, .error fault)

end GlobCache

end DesignTokens
