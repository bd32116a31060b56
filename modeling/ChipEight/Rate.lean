/-!
# Rates

How often something happens in a second, and the time from one occurrence to the next.
Times are whole nanoseconds. The rate zero stands for the interval zero; a rate above
one in a nanosecond counts as that, so that no other rate has the interval zero.
-/

namespace ChipEight

/-- How often something is done. -/
structure Rate where
  /-- Occurrences in a second. -/
  hertz : Nat
  deriving DecidableEq, Repr

namespace Rate

/-- The highest rate with an interval of its own, one in a nanosecond. -/
def maxHertz : Nat := 1000000000

/-- The nanoseconds from one occurrence to the next. -/
def interval (r : Rate) : Nat := if r.hertz = 0 then 0 else 1000000000 / min r.hertz maxHertz

/-- Only the rate zero has the interval zero. -/
theorem interval_eq_zero_iff (r : Rate) : r.interval = 0 ↔ r.hertz = 0 := by
  unfold interval maxHertz
  constructor
  · intro h
    split at h
    · assumption
    · next h0 =>
      rcases Nat.div_eq_zero_iff.1 h with h | h <;> omega
  · intro h
    simp [h]

end Rate

end ChipEight
