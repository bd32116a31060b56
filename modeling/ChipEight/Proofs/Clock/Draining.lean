import ChipEight.Proofs.Clock.Backlog
import Mathlib.Data.List.Chain

/-!
# Draining a clock

A host drains a clock by asking at one reading until nothing is due. It is given the whole
backlog, and the due cycles stay where they were; only a clock that is too late gives one
cycle and goes on from the reading. A clock that is drained often enough is never too late, so
over any number of readings it gives exactly the whole intervals that passed.
-/

namespace ChipEight.Clock

variable {c : Clock} {now : Nat}

/-- A cycle that is given makes the clock less late. -/
theorem late_poll_lt (h : (c.poll now).1 = true) :
    now - (c.poll now).2.last < now - c.last := by
  by_cases hzero : c.interval = 0
  · rw [poll_of_interval_eq_zero hzero] at h ⊢
    have hmoved : c.last < now := of_decide_eq_true h
    change now - max c.last now < now - c.last
    omega
  · have hpos : 0 < c.interval := Nat.pos_of_ne_zero hzero
    obtain ⟨-, hp⟩ | ⟨hdue, hp⟩ | ⟨hlate, hp⟩ := poll_cases hpos now
    · rw [hp] at h
      cases h
    · rw [hp]
      change now - (c.last + c.interval) < now - c.last
      omega
    · rw [hp]
      change now - now < now - c.last
      omega

/-- Ask at one reading until nothing is due: the cycles given, and the clock behind them. -/
def drain (c : Clock) (now : Nat) : Nat × Clock :=
  if (c.poll now).1 = true then
    let (count, behind) := (c.poll now).2.drain now
    (count + 1, behind)
  else (0, (c.poll now).2)
termination_by now - c.last
decreasing_by exact late_poll_lt ‹_›

/-- Drain at one reading after the other: the cycles given, and the clock behind them. -/
def drainAll (c : Clock) : List Nat → Nat × Clock
  | [] => (0, c)
  | now :: rest =>
    let (count, next) := c.drain now
    let (more, behind) := next.drainAll rest
    (count + more, behind)

theorem drain_of_due {next : Clock} (h : c.poll now = (true, next)) :
    c.drain now = ((next.drain now).1 + 1, (next.drain now).2) := by
  rw [drain, h]
  rfl

theorem drain_of_not_due {next : Clock} (h : c.poll now = (false, next)) :
    c.drain now = (0, next) := by
  rw [drain, h]
  rfl

/-- Draining gives the backlog and leaves the clock caught up. -/
theorem drain_eq (hpos : 0 < c.interval) (hskip : ¬ c.SkipsAhead now) :
    c.drain now = (c.backlog now, c.caughtUp now) := by
  induction hb : c.backlog now generalizing c with
  | zero =>
    rw [drain_of_not_due (poll_of_backlog_eq_zero hpos hb), caughtUp_of_backlog_eq_zero hb]
  | succ left ih =>
    have hdue : 0 < c.backlog now := by omega
    have hleft : c.advance.backlog now = left := by
      rw [backlog_advance]
      omega
    have hrest := ih (c := c.advance) hpos (not_skipsAhead_advance hskip) hleft
    rw [drain_of_due (poll_of_backlog_pos hpos hskip hdue), hrest, caughtUp_advance hdue]

/-- Draining a clock that skips ahead gives one cycle and leaves the clock at the reading. -/
theorem drain_of_skipsAhead (hskip : c.SkipsAhead now) : c.drain now = (1, c.reset now) := by
  have hnone : (c.reset now).backlog now = 0 := by
    rw [backlog, reset, Nat.sub_self, Nat.zero_div]
  have hrest := drain_of_not_due (c := c.reset now)
    (poll_of_backlog_eq_zero (c := c.reset now) hskip.1 hnone)
  rw [drain_of_due (poll_of_skipsAhead hskip), hrest]

/-- Nothing remains exactly when the next look gives a cycle. -/
theorem remaining_eq_zero_iff_due (hpos : 0 < c.interval) :
    c.remaining now = 0 ↔ (c.poll now).1 = true := by
  rw [remaining_eq_zero_iff]
  obtain ⟨hearly, hp⟩ | ⟨hdue, hp⟩ | ⟨hlate, hp⟩ := poll_cases hpos now
  · rw [hp]
    exact iff_of_false (Nat.not_le_of_lt hearly) Bool.false_ne_true
  · rw [hp]
    exact iff_of_true hdue rfl
  · have hdue : c.interval ≤ now - c.last := by
      unfold maxBacklog at hlate
      omega
    rw [hp]
    exact iff_of_true hdue rfl

section Readings

variable {later : Nat}

/-- What is due at a later reading was due before or comes due in between. -/
theorem backlog_add_backlog (hle : now ≤ later) :
    c.backlog now + (c.caughtUp now).backlog later = c.backlog later := by
  have hmore : c.backlog now ≤ c.backlog later :=
    Nat.div_le_div_right (Nat.sub_le_sub_right hle _)
  have hrest : (c.caughtUp now).backlog later = c.backlog later - c.backlog now := by
    have h := Nat.sub_mul_div (later - c.last) c.interval (c.backlog now)
    rw [Nat.sub_sub, Nat.mul_comm] at h
    exact h
  omega

/-- Catching up in between makes no difference to where the clock is in the end. -/
theorem caughtUp_caughtUp (hle : now ≤ later) :
    (c.caughtUp now).caughtUp later = c.caughtUp later := by
  have hsum := backlog_add_backlog (c := c) hle
  have hlast : c.last + c.backlog now * c.interval +
      (c.caughtUp now).backlog later * c.interval = c.last + c.backlog later * c.interval := by
    rw [Nat.add_assoc, ← Nat.add_mul, hsum]
  exact congrArg (Clock.mk c.interval) hlast

/-- A clock that has caught up does not skip ahead within the next seven intervals. -/
theorem not_skipsAhead_caughtUp (hpos : 0 < c.interval) (hnear : later ≤ now + 7 * c.interval) :
    ¬ (c.caughtUp now).SkipsAhead later := by
  rintro ⟨-, hlate⟩
  have hcaught : now - (c.caughtUp now).last < c.interval :=
    (Nat.div_eq_zero_iff_lt hpos).mp (backlog_caughtUp c now)
  change c.interval * 8 < later - (c.caughtUp now).last at hlate
  omega

end Readings

theorem drainAll_cons (c : Clock) (now : Nat) (rest : List Nat) :
    c.drainAll (now :: rest) =
      ((c.drain now).1 + ((c.drain now).2.drainAll rest).1, ((c.drain now).2.drainAll rest).2) :=
  rfl

/-- A reading comes at most seven intervals after the one before. -/
def Follows (interval now later : Nat) : Prop := now ≤ later ∧ later ≤ now + 7 * interval

/-- Readings that follow each other do not go back. -/
theorem le_getLastD_of_follows {interval first : Nat} {rest : List Nat}
    (h : (first :: rest).IsChain (Follows interval)) : first ≤ rest.getLastD first := by
  induction rest generalizing first with
  | nil => exact Nat.le_refl first
  | cons next rest ih =>
    obtain ⟨⟨hle, -⟩, hrest⟩ := List.isChain_cons_cons.mp h
    rw [List.getLastD_cons]
    exact Nat.le_trans hle (ih hrest)

/-- A clock that is drained often enough gives what is due at the last reading, as if it was asked
only then. -/
theorem drainAll_eq {first : Nat} {rest : List Nat} (hpos : 0 < c.interval)
    (hskip : ¬ c.SkipsAhead first) (hchain : (first :: rest).IsChain (Follows c.interval)) :
    c.drainAll (first :: rest) =
      (c.backlog (rest.getLastD first), c.caughtUp (rest.getLastD first)) := by
  induction rest generalizing c first with
  | nil =>
    rw [drainAll, drain_eq hpos hskip]
    rfl
  | cons next rest ih =>
    obtain ⟨⟨hle, hnear⟩, hrest⟩ := List.isChain_cons_cons.mp hchain
    have hall := ih (c := c.caughtUp first) hpos (not_skipsAhead_caughtUp hpos hnear) hrest
    have hlast : first ≤ rest.getLastD next := Nat.le_trans hle (le_getLastD_of_follows hrest)
    have hsum := backlog_add_backlog (c := c) hlast
    rw [drainAll_cons, drain_eq hpos hskip, hall, List.getLastD_cons, hsum,
      caughtUp_caughtUp hlast]

/-- Draining a clock gives a cycle for each whole interval since the last one, up to eight, and
leaves the due cycles where they were; a clock that is later still gives one cycle and goes on from
the reading. A cycle is due exactly when nothing remains until the next one. So over readings at
most seven intervals apart, drained one after the other, the cycles given are the whole intervals
from the first due cycle to the last reading, and the clock stays in step with them. -/
theorem drained_exactly {c : Clock} (hpos : 0 < c.interval) :
    (∀ now,
      (now - c.last ≤ 8 * c.interval →
        c.drain now = ((now - c.last) / c.interval,
          { c with last := c.last + (now - c.last) / c.interval * c.interval })) ∧
      (8 * c.interval < now - c.last → c.drain now = (1, { c with last := now })) ∧
      (c.drain now).1 ≤ 8 ∧
      (c.remaining now = 0 ↔ (c.poll now).1 = true)) ∧
    ∀ (first : Nat) (rest : List Nat), first ≤ c.last + 8 * c.interval →
      (first :: rest).IsChain (Follows c.interval) →
      let passed := (rest.getLastD first - c.last) / c.interval
      c.drainAll (first :: rest) =
        (passed, { c with last := c.last + passed * c.interval }) := by
  refine ⟨fun now => ?_, fun first rest hfirst hchain => ?_⟩
  · have hskips : c.SkipsAhead now ↔ 8 * c.interval < now - c.last := by
      rw [Nat.mul_comm]
      exact and_iff_right hpos
    refine ⟨fun hle => ?_, fun hlate => ?_, ?_, remaining_eq_zero_iff_due hpos⟩
    · exact drain_eq hpos fun hskip => Nat.not_le_of_lt (hskips.mp hskip) hle
    · exact drain_of_skipsAhead (hskips.mpr hlate)
    · by_cases hskip : c.SkipsAhead now
      · rw [drain_of_skipsAhead hskip]
        exact (by decide : 1 ≤ 8)
      · rw [drain_eq hpos hskip]
        exact backlog_le hskip
  · refine drainAll_eq hpos ?_ hchain
    rintro ⟨-, hlate⟩
    change c.interval * 8 < first - c.last at hlate
    omega

/-- A clock that gives a cycle every ten nanoseconds. -/
def tenth : Clock := ⟨10, 3⟩

/-- Eight intervals late, the clock gives eight cycles, and a nanosecond later one. The readings
behind the first one are up to seven intervals apart, and the clock gives all twenty-two cycles. -/
theorem drained_exactly_tenth :
    0 < tenth.interval ∧ tenth.drain 83 = (8, ⟨10, 83⟩) ∧ tenth.drain 84 = (1, ⟨10, 84⟩) ∧
      [83, 83, 150, 220, 224].IsChain (Follows tenth.interval) ∧
      tenth.drainAll [83, 83, 150, 220, 224] = (22, ⟨10, 223⟩) := by
  have hpos : 0 < tenth.interval := by decide
  have hchain : [83, 83, 150, 220, 224].IsChain (Follows tenth.interval) := by
    simp [Follows, tenth]
  obtain ⟨hone, hall⟩ := drained_exactly hpos
  exact ⟨hpos, (hone 83).1 (by decide), (hone 84).2.1 (by decide), hchain,
    hall 83 [83, 150, 220, 224] (by decide) hchain⟩

end ChipEight.Clock
