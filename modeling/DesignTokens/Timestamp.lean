/-!
# Time stamps

The library has no clock. A time is stamped on a file as it is given; where none is given a fixed time
is stamped, so that equal input gives equal files.
-/

namespace DesignTokens

/-- The time that stands for one that is not given. -/
def fixedTimestamp : String := "2024-01-01T00:00:00.000Z"

/-- The time that is stamped; an empty one counts as not given. -/
def timestamp (given : String) : String :=
  if given = "" then fixedTimestamp else given

end DesignTokens
