/-!
# Clocks

A clock tells its host when a cycle is due. It measures from the last due cycle and not
from when it was asked, so a host that asks late does not drift; a host that asks more
than eight cycles late is given one cycle, and the clock goes on from there. Times are
nanoseconds since a common start, and a reading may lie before an earlier one. They are numbers
without an upper bound: where a source of time has one, a sum or an eightfold interval beyond it
stops the program, and such times are outside this model.
-/

namespace ChipEight

/-- A clock behind one of its cycles. -/
structure Clock where
  /-- The time between two cycles. -/
  interval : Nat
  /-- The time of the last cycle. -/
  last : Nat
  deriving DecidableEq, Repr

namespace Clock

/-- The number of cycles that a clock makes up for. -/
def maxBacklog : Nat := 8

/-- Ask at a time whether a cycle is due, and take it if so. With the interval zero a cycle is due
whenever time has moved on. -/
def poll (c : Clock) (now : Nat) : Bool × Clock :=
  if c.interval = 0 then (decide (c.last < now), { c with last := max c.last now })
  else if now - c.last < c.interval then (false, c)
  else if c.interval * maxBacklog < now - c.last then (true, { c with last := now })
  else (true, { c with last := c.last + c.interval })

/-- The time from a reading to the next due cycle. -/
def remaining (c : Clock) (now : Nat) : Nat := c.interval - (now - c.last)

/-- The clock as if a cycle had been due at the given time. -/
def reset (c : Clock) (now : Nat) : Clock := { c with last := now }

/-- Nothing remains exactly when a whole interval has passed. -/
theorem remaining_eq_zero_iff (c : Clock) (now : Nat) :
    c.remaining now = 0 ↔ c.interval ≤ now - c.last := by
  unfold remaining
  omega

/-- Asking never changes the interval. -/
@[simp] theorem interval_poll (c : Clock) (now : Nat) : (c.poll now).2.interval = c.interval := by
  unfold poll
  split
  · rfl
  · split
    · rfl
    · split <;> rfl

/-- The last due cycle never moves back. -/
theorem last_le_last_poll (c : Clock) (now : Nat) : c.last ≤ (c.poll now).2.last := by
  unfold poll maxBacklog
  split
  · exact Nat.le_max_left _ _
  · split
    · exact Nat.le_refl _
    · split
      · show c.last ≤ now
        omega
      · exact Nat.le_add_right _ _

end Clock

end ChipEight
