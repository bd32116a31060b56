/-!
# Log entries

What the machine reports about its work while it runs.
-/

namespace ChipEight.Log

/-- How important an entry is. -/
inductive Level
  | trace
  | debug
  | warn
  deriving DecidableEq, Repr

/-- A line of the log. -/
structure Entry where
  /-- How much it matters. -/
  level : Level
  /-- What is logged. -/
  text : List Char
  deriving DecidableEq, Repr

end ChipEight.Log
