import ChipEight.Proofs.Clock.Backlog
import ChipEight.Proofs.Machine.History
import ChipEight.Runner

/-!
# What an update does

An update asks the clocks again and again. Whatever it reads from them, it does to the
machine what `Report.operations` lists: steps, ticks, and taking the screen. Where all
looks at the clocks give the same time and no clock skips ahead, it makes exactly the
steps and ticks of their backlogs, and leaves both clocks caught up.
-/

namespace ChipEight

/-- What was done to the machine, in order; after a fault there are neither ticks nor a frame. -/
def Report.operations (p : Report) : List Operation :=
  List.replicate p.steps .step ++
    match p.fault with
    | some _ => []
    | none => List.replicate p.ticks .tick ++ [.takeFrame]

/-- The operations of an update without a fault hold its steps and ticks. -/
theorem Report.count_operations {p : Report} (h : p.fault = none) :
    p.operations.count .step = p.steps ∧ p.operations.count .tick = p.ticks := by
  simp [operations, h, List.count_append, List.count_replicate]

/-- An update makes steps and ticks, and takes the screen. -/
theorem Report.mem_operations {p : Report} {operation : Operation} (h : operation ∈ p.operations) :
    operation = .step ∨ operation = .tick ∨ operation = .takeFrame := by
  rw [operations] at h
  rcases List.mem_append.mp h with h | h
  · exact Or.inl (List.eq_of_mem_replicate h)
  · split at h
    · cases h
    · rcases List.mem_append.mp h with h | h
      · exact Or.inr (Or.inl (List.eq_of_mem_replicate h))
      · exact Or.inr (Or.inr (List.mem_singleton.mp h))

namespace Runner

section Cases

variable {now : Nat → Nat} {limit done beeps : Nat} {r : Runner} {clock : Clock} {m : Machine}

theorem stepDue_of_not_due (h : r.cpuClock.poll (now done) = (false, clock)) :
    stepDue now (limit + 1) done r = (done, none, { r with cpuClock := clock }) := by
  simp only [stepDue, h]
  rfl

theorem stepDue_of_ok {flow : Flow} (h : r.cpuClock.poll (now done) = (true, clock))
    (hs : r.machine.step = (.ok flow, m)) :
    stepDue now (limit + 1) done r =
      stepDue now limit (done + 1) { r with machine := m, cpuClock := clock } := by
  simp only [stepDue, h, hs]
  rfl

theorem stepDue_of_error {cause : StackFault} (h : r.cpuClock.poll (now done) = (true, clock))
    (hs : r.machine.step = (.error cause, m)) :
    stepDue now (limit + 1) done r =
      (done + 1, some cause, { r with machine := m, cpuClock := clock }) := by
  simp only [stepDue, h, hs]
  rfl

theorem tickDue_of_not_due (h : r.timerClock.poll (now done) = (false, clock)) :
    tickDue now (limit + 1) done beeps r = (done, beeps, { r with timerClock := clock }) := by
  simp only [tickDue, h]
  rfl

theorem tickDue_of_due (h : r.timerClock.poll (now done) = (true, clock)) :
    tickDue now (limit + 1) done beeps r =
      tickDue now limit (done + 1) (if r.machine.tick.1 then beeps + 1 else beeps)
        { r with machine := r.machine.tick.2, timerClock := clock } := by
  simp only [tickDue, h]
  rfl

end Cases

/-- Due steps are steps; the other clock is not looked at. -/
theorem stepDue_machine (now : Nat → Nat) (limit done : Nat) (r : Runner) :
    ∃ count ≤ limit, (stepDue now limit done r).1 = done + count ∧
      (stepDue now limit done r).2.2.machine = r.machine.behind (List.replicate count .step) ∧
      (stepDue now limit done r).2.2.timerClock = r.timerClock := by
  induction limit generalizing done r with
  | zero => exact ⟨0, Nat.le_refl 0, rfl, rfl, rfl⟩
  | succ limit ih =>
    rcases hp : r.cpuClock.poll (now done) with ⟨due, clock⟩
    cases due with
    | false =>
      rw [stepDue_of_not_due hp]
      exact ⟨0, Nat.zero_le _, rfl, rfl, rfl⟩
    | true =>
      rcases hs : r.machine.step with ⟨outcome, m⟩
      have hone : (r.machine.apply .step).2 = m := congrArg Prod.snd hs
      cases outcome with
      | error cause =>
        rw [stepDue_of_error hp hs]
        exact ⟨1, Nat.succ_le_succ (Nat.zero_le _), rfl, hone.symm, rfl⟩
      | ok flow =>
        obtain ⟨count, hle, hcount, hm, ht⟩ :=
          ih (done + 1) { r with machine := m, cpuClock := clock }
        rw [stepDue_of_ok hp hs]
        refine ⟨count + 1, Nat.succ_le_succ hle, by omega, ?_, ht⟩
        rw [hm, List.replicate_succ, Machine.behind_cons, hone]

/-- Due ticks are ticks. -/
theorem tickDue_machine (now : Nat → Nat) (limit done beeps : Nat) (r : Runner) :
    ∃ count ≤ limit, (tickDue now limit done beeps r).1 = done + count ∧
      (tickDue now limit done beeps r).2.2.machine =
        r.machine.behind (List.replicate count .tick) ∧
      (tickDue now limit done beeps r).2.2.cpuClock = r.cpuClock := by
  induction limit generalizing done beeps r with
  | zero => exact ⟨0, Nat.le_refl 0, rfl, rfl, rfl⟩
  | succ limit ih =>
    rcases hp : r.timerClock.poll (now done) with ⟨due, clock⟩
    cases due with
    | false =>
      rw [tickDue_of_not_due hp]
      exact ⟨0, Nat.zero_le _, rfl, rfl, rfl⟩
    | true =>
      obtain ⟨count, hle, hcount, hm, hc⟩ :=
        ih (done + 1) (if r.machine.tick.1 then beeps + 1 else beeps)
          { r with machine := r.machine.tick.2, timerClock := clock }
      rw [tickDue_of_due hp]
      refine ⟨count + 1, Nat.succ_le_succ hle, by omega, ?_, hc⟩
      rw [hm, List.replicate_succ, Machine.behind_cons]
      rfl

theorem update_of_fault {r next : Runner} {cpuNow : Nat → Nat} {steps : Nat} {cause : StackFault}
    (timerNow : Nat → Nat) (h : stepDue cpuNow maxCycles 0 r = (steps, some cause, next)) :
    r.update cpuNow timerNow = (⟨steps, 0, 0, none, some cause⟩, next) := by
  simp only [update, h]

theorem update_of_ok {r next : Runner} {cpuNow : Nat → Nat} {steps : Nat}
    (timerNow : Nat → Nat) (h : stepDue cpuNow maxCycles 0 r = (steps, none, next)) :
    r.update cpuNow timerNow =
      (⟨steps, (tickDue timerNow maxCycles 0 0 next).1, (tickDue timerNow maxCycles 0 0 next).2.1,
          (tickDue timerNow maxCycles 0 0 next).2.2.machine.takeFrame.1, none⟩,
        { (tickDue timerNow maxCycles 0 0 next).2.2 with
          machine := (tickDue timerNow maxCycles 0 0 next).2.2.machine.takeFrame.2 }) := by
  simp only [update, h]

/-- The machine is led where the operations of the report lead it. -/
theorem machine_update (r : Runner) (cpuNow timerNow : Nat → Nat) :
    (r.update cpuNow timerNow).2.machine =
      r.machine.behind (r.update cpuNow timerNow).1.operations := by
  obtain ⟨steps, -, hsteps, hstepped, -⟩ := stepDue_machine cpuNow maxCycles 0 r
  rw [Nat.zero_add] at hsteps
  rcases hs : stepDue cpuNow maxCycles 0 r with ⟨steps', fault, next⟩
  rw [hs] at hsteps hstepped
  obtain rfl : steps' = steps := hsteps
  cases fault with
  | some cause =>
    rw [update_of_fault timerNow hs, Report.operations, List.append_nil]
    exact hstepped
  | none =>
    obtain ⟨ticks, -, hticks, hticked, -⟩ := tickDue_machine timerNow maxCycles 0 0 next
    rw [Nat.zero_add] at hticks
    rw [update_of_ok timerNow hs, Report.operations]
    simp only [Machine.behind_append, hticks]
    rw [← hstepped, ← hticked]
    rfl

/-- An update makes at most so many steps and ticks. -/
theorem count_operations_update_le (r : Runner) (cpuNow timerNow : Nat → Nat) :
    (r.update cpuNow timerNow).1.operations.count .step ≤ maxCycles ∧
      (r.update cpuNow timerNow).1.operations.count .tick ≤ maxCycles := by
  obtain ⟨steps, hstepped, hsteps, -⟩ := stepDue_machine cpuNow maxCycles 0 r
  rcases hs : stepDue cpuNow maxCycles 0 r with ⟨steps', fault, next⟩
  rw [hs, Nat.zero_add] at hsteps
  obtain rfl : steps' = steps := hsteps
  cases fault with
  | some cause =>
    rw [update_of_fault timerNow hs]
    simpa [Report.operations, List.count_replicate] using hstepped
  | none =>
    obtain ⟨ticks, hticked, hticks, -⟩ := tickDue_machine timerNow maxCycles 0 0 next
    rw [Nat.zero_add] at hticks
    rw [update_of_ok timerNow hs, hticks]
    simpa [Report.operations, List.count_append, List.count_replicate] using ⟨hstepped, hticked⟩

/-- Without a fault, the due steps are those of the backlog. -/
theorem stepDue_exact {now limit : Nat} (done : Nat) (r : Runner)
    (hpos : 0 < r.cpuClock.interval) (hskip : ¬ r.cpuClock.SkipsAhead now)
    (hlimit : r.cpuClock.backlog now < limit)
    (hok : (stepDue (fun _ => now) limit done r).2.1 = none) :
    (stepDue (fun _ => now) limit done r).1 = done + r.cpuClock.backlog now ∧
      (stepDue (fun _ => now) limit done r).2.2.cpuClock = r.cpuClock.caughtUp now := by
  induction limit generalizing done r with
  | zero => exact absurd hlimit (Nat.not_lt_zero _)
  | succ limit ih =>
    by_cases hb : r.cpuClock.backlog now = 0
    · rw [stepDue_of_not_due (Clock.poll_of_backlog_eq_zero hpos hb),
        Clock.caughtUp_of_backlog_eq_zero hb, hb]
      exact ⟨rfl, rfl⟩
    · have hb : 0 < r.cpuClock.backlog now := Nat.pos_of_ne_zero hb
      have hp := Clock.poll_of_backlog_pos hpos hskip hb
      rcases hs : r.machine.step with ⟨outcome, m⟩
      cases outcome with
      | error cause =>
        rw [stepDue_of_error hp hs] at hok
        cases hok
      | ok flow =>
        rw [stepDue_of_ok hp hs] at hok ⊢
        have hnext : r.cpuClock.advance.backlog now < limit := by
          rw [Clock.backlog_advance]
          omega
        obtain ⟨hcount, hclock⟩ :=
          ih (done + 1) { r with machine := m, cpuClock := r.cpuClock.advance } hpos
            (Clock.not_skipsAhead_advance hskip) hnext hok
        rw [Clock.backlog_advance] at hcount
        rw [Clock.caughtUp_advance hb] at hclock
        exact ⟨by omega, hclock⟩

/-- The due ticks are those of the backlog. -/
theorem tickDue_exact {now limit : Nat} (done beeps : Nat) (r : Runner)
    (hpos : 0 < r.timerClock.interval) (hskip : ¬ r.timerClock.SkipsAhead now)
    (hlimit : r.timerClock.backlog now < limit) :
    (tickDue (fun _ => now) limit done beeps r).1 = done + r.timerClock.backlog now ∧
      (tickDue (fun _ => now) limit done beeps r).2.2.timerClock = r.timerClock.caughtUp now := by
  induction limit generalizing done beeps r with
  | zero => exact absurd hlimit (Nat.not_lt_zero _)
  | succ limit ih =>
    by_cases hb : r.timerClock.backlog now = 0
    · rw [tickDue_of_not_due (Clock.poll_of_backlog_eq_zero hpos hb),
        Clock.caughtUp_of_backlog_eq_zero hb, hb]
      exact ⟨rfl, rfl⟩
    · have hb : 0 < r.timerClock.backlog now := Nat.pos_of_ne_zero hb
      rw [tickDue_of_due (Clock.poll_of_backlog_pos hpos hskip hb)]
      have hnext : r.timerClock.advance.backlog now < limit := by
        rw [Clock.backlog_advance]
        omega
      obtain ⟨hcount, hclock⟩ :=
        ih (done + 1) (if r.machine.tick.1 then beeps + 1 else beeps)
          { r with machine := r.machine.tick.2, timerClock := r.timerClock.advance } hpos
          (Clock.not_skipsAhead_advance hskip) hnext
      rw [Clock.backlog_advance] at hcount
      rw [Clock.caughtUp_advance hb] at hclock
      exact ⟨by omega, hclock⟩

/-- An update at one reading that meets no fault makes the steps and ticks of the backlogs and
leaves both clocks caught up. -/
theorem update_exact {now : Nat} {r : Runner} (hcpu : 0 < r.cpuClock.interval)
    (htimer : 0 < r.timerClock.interval) (hcpuSkip : ¬ r.cpuClock.SkipsAhead now)
    (htimerSkip : ¬ r.timerClock.SkipsAhead now)
    (hok : (r.update (fun _ => now) (fun _ => now)).1.fault = none) :
    (r.update (fun _ => now) (fun _ => now)).1.steps = r.cpuClock.backlog now ∧
      (r.update (fun _ => now) (fun _ => now)).1.ticks = r.timerClock.backlog now ∧
      (r.update (fun _ => now) (fun _ => now)).2.cpuClock = r.cpuClock.caughtUp now ∧
      (r.update (fun _ => now) (fun _ => now)).2.timerClock = r.timerClock.caughtUp now := by
  have hlimit {c : Clock} (h : ¬ c.SkipsAhead now) : c.backlog now < maxCycles :=
    Nat.lt_of_le_of_lt (Clock.backlog_le h) (by decide)
  rcases hs : stepDue (fun _ => now) maxCycles 0 r with ⟨steps, fault, next⟩
  cases fault with
  | some cause =>
    rw [update_of_fault _ hs] at hok
    cases hok
  | none =>
    have hnone : (stepDue (fun _ => now) maxCycles 0 r).2.1 = none := by rw [hs]
    obtain ⟨hsteps, hcaught⟩ := stepDue_exact 0 r hcpu hcpuSkip (hlimit hcpuSkip) hnone
    obtain ⟨_, -, -, -, hkept⟩ := stepDue_machine (fun _ => now) maxCycles 0 r
    rw [hs] at hsteps hcaught hkept
    have hkept : next.timerClock = r.timerClock := hkept
    rw [← hkept] at htimer htimerSkip
    obtain ⟨hticks, hticked⟩ := tickDue_exact 0 0 next htimer htimerSkip (hlimit htimerSkip)
    obtain ⟨_, -, -, -, hcpuKept⟩ := tickDue_machine (fun _ => now) maxCycles 0 0 next
    rw [update_of_ok _ hs]
    rw [Nat.zero_add] at hsteps hticks
    rw [hkept] at hticks hticked
    exact ⟨hsteps, hticks, hcpuKept.trans hcaught, hticked⟩

end Runner

end ChipEight
