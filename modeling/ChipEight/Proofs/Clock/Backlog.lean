import ChipEight.Clock

/-!
# The backlog of a clock

The whole intervals that passed since the last due cycle are the backlog. A clock that is
asked at one reading again and again works its backlog off cycle by cycle, and then says
that nothing is due. Only a clock more than `maxBacklog` intervals late skips ahead instead.
-/

namespace ChipEight.Clock

variable {c : Clock} {now : Nat}

/-- The cycles that are due at a reading. -/
def backlog (c : Clock) (now : Nat) : Nat := (now - c.last) / c.interval

/-- The clock one cycle further. -/
def advance (c : Clock) : Clock := { c with last := c.last + c.interval }

/-- The clock with its backlog worked off. -/
def caughtUp (c : Clock) (now : Nat) : Clock :=
  { c with last := c.last + c.backlog now * c.interval }

/-- The clock is too late to make up for what it missed. -/
def SkipsAhead (c : Clock) (now : Nat) : Prop :=
  0 < c.interval ∧ c.interval * maxBacklog < now - c.last

/-- The clock after it was asked so many times at one reading. -/
def asked (c : Clock) (now : Nat) : Nat → Clock
  | 0 => c
  | count + 1 => (c.poll now).2.asked now count

/-- A clock that skips ahead gives one cycle and goes on from the reading. -/
theorem poll_of_skipsAhead (h : c.SkipsAhead now) : c.poll now = (true, c.reset now) := by
  obtain ⟨hpos, hlate⟩ := h
  have hle : c.interval ≤ c.interval * maxBacklog := Nat.le_mul_of_pos_right _ (by decide)
  rw [poll, if_neg (Nat.ne_of_gt hpos), if_neg (by omega), if_pos hlate]
  rfl

/-- Without a backlog nothing is due. -/
theorem poll_of_backlog_eq_zero (hpos : 0 < c.interval) (h : c.backlog now = 0) :
    c.poll now = (false, c) := by
  have hearly : now - c.last < c.interval := (Nat.div_eq_zero_iff_lt hpos).mp h
  rw [poll, if_neg (Nat.ne_of_gt hpos), if_pos hearly]

/-- With a backlog that is not skipped, one cycle is given. -/
theorem poll_of_backlog_pos (hpos : 0 < c.interval) (hskip : ¬ c.SkipsAhead now)
    (h : 0 < c.backlog now) : c.poll now = (true, c.advance) := by
  have hdue : c.interval ≤ now - c.last := (Nat.div_pos_iff.mp h).2
  have hlate : ¬ c.interval * maxBacklog < now - c.last := fun hlate => hskip ⟨hpos, hlate⟩
  rw [poll, if_neg (Nat.ne_of_gt hpos), if_neg (by omega), if_neg hlate]
  rfl

/-- A look gives nothing, or one cycle of the backlog, or it skips ahead. -/
theorem poll_cases (hpos : 0 < c.interval) (now : Nat) :
    now - c.last < c.interval ∧ c.poll now = (false, c) ∨
      c.interval ≤ now - c.last ∧ c.poll now = (true, c.advance) ∨
      c.interval * maxBacklog < now - c.last ∧ c.poll now = (true, c.reset now) := by
  by_cases hskip : c.SkipsAhead now
  · exact Or.inr (Or.inr ⟨hskip.2, poll_of_skipsAhead hskip⟩)
  · by_cases hb : c.backlog now = 0
    · exact Or.inl ⟨(Nat.div_eq_zero_iff_lt hpos).mp hb, poll_of_backlog_eq_zero hpos hb⟩
    · have hb : 0 < c.backlog now := Nat.pos_of_ne_zero hb
      exact Or.inr (Or.inl ⟨(Nat.div_pos_iff.mp hb).2, poll_of_backlog_pos hpos hskip hb⟩)

/-- Without intervals, a look gives a cycle when time has moved on, and the clock moves with it. -/
theorem poll_of_interval_eq_zero (h : c.interval = 0) (now : Nat) :
    c.poll now = (decide (c.last < now), { c with last := max c.last now }) := by
  rw [poll, if_pos h]

/-- A cycle further, the backlog is one cycle less. -/
theorem backlog_advance : c.advance.backlog now = c.backlog now - 1 := by
  have h := Nat.sub_mul_div (now - c.last) c.interval 1
  rw [Nat.mul_one, Nat.sub_sub] at h
  exact h

/-- Without a backlog there is nothing to work off. -/
theorem caughtUp_of_backlog_eq_zero (h : c.backlog now = 0) : c.caughtUp now = c := by
  rw [caughtUp, h, Nat.zero_mul, Nat.add_zero]

/-- A cycle further, the same work is left to be done in the end. -/
theorem caughtUp_advance (h : 0 < c.backlog now) : c.advance.caughtUp now = c.caughtUp now := by
  obtain ⟨count, hcount⟩ : ∃ count, c.backlog now = count + 1 := ⟨c.backlog now - 1, by omega⟩
  have hlast : c.last + c.interval + count * c.interval = c.last + (count + 1) * c.interval := by
    rw [Nat.succ_mul]
    omega
  rw [caughtUp, caughtUp, backlog_advance, hcount, Nat.add_sub_cancel]
  exact congrArg (Clock.mk c.interval) hlast

/-- A worked-off backlog is gone. -/
theorem backlog_caughtUp (c : Clock) (now : Nat) : (c.caughtUp now).backlog now = 0 := by
  have h := Nat.sub_mul_div (now - c.last) c.interval (c.backlog now)
  rw [Nat.sub_sub, Nat.mul_comm] at h
  exact h.trans (Nat.sub_self _)

/-- A clock that does not skip ahead has a small backlog. -/
theorem backlog_le (h : ¬ c.SkipsAhead now) : c.backlog now ≤ maxBacklog := by
  by_cases hpos : 0 < c.interval
  · have hlate : now - c.last ≤ c.interval * maxBacklog :=
      Nat.le_of_not_lt fun hlate => h ⟨hpos, hlate⟩
    exact Nat.div_le_of_le_mul hlate
  · have hzero : c.interval = 0 := by omega
    rw [backlog, hzero, Nat.div_zero]
    exact Nat.zero_le _

/-- A cycle further, the clock is still not too late. -/
theorem not_skipsAhead_advance (h : ¬ c.SkipsAhead now) : ¬ c.advance.SkipsAhead now := by
  rintro ⟨hpos, hlate⟩
  change c.interval * maxBacklog < now - (c.last + c.interval) at hlate
  exact h ⟨hpos, by omega⟩

/-- A clock that does not skip ahead the first time does not do so later at the same reading. -/
theorem not_skipsAhead_asked (h : ¬ c.SkipsAhead now) (count : Nat) :
    ¬ (c.asked now count).SkipsAhead now := by
  induction count generalizing c with
  | zero => exact h
  | succ count ih =>
    refine ih ?_
    rintro ⟨hpos, hlate⟩
    have hlast := c.last_le_last_poll now
    rw [interval_poll] at hpos hlate
    exact h ⟨hpos, by omega⟩

/-- The whole intervals since a start are the cycles given and the backlog. -/
theorem cycles_add_backlog {start count : Nat} (hpos : 0 < c.interval)
    (hlast : c.last = start + count * c.interval) (hle : c.last ≤ now) :
    count + c.backlog now = (now - start) / c.interval := by
  have hsplit : now - start = (now - c.last) + count * c.interval := by omega
  rw [hsplit, Nat.add_mul_div_right _ _ hpos, Nat.add_comm]
  rfl

/-- Something remains until the next cycle exactly while there is no backlog. -/
theorem remaining_pos_iff (hpos : 0 < c.interval) :
    0 < c.remaining now ↔ c.backlog now = 0 := by
  have hdue := c.remaining_eq_zero_iff now
  have hnone : c.backlog now = 0 ↔ now - c.last < c.interval := Nat.div_eq_zero_iff_lt hpos
  omega

end ChipEight.Clock
