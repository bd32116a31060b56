import ChipEight.Proofs.Runner.Loop
import ChipEight.Settings

/-!
# The pace of a running machine

On a time that moves only while the machine rests, and then by exactly the time it rests
for, the machine keeps its rates exactly. Each clock is at most one cycle late whenever the
machine works, because the machine never rests beyond the next cycle of either clock; so
nothing is skipped, every update works the backlogs off, and the cycles given are the
whole intervals that passed.
-/

namespace ChipEight

/-- The clock gave so many cycles since the start, all on time, and is at most one late. -/
structure Clock.Keeps (c : Clock) (period start count now : Nat) : Prop where
  /-- The clock gives its cycles one period apart. -/
  interval : c.interval = period
  /-- The last cycle lies as many periods behind the start as there were cycles. -/
  last : c.last = start + count * period
  /-- No cycle was given before its time. -/
  due : c.last ≤ now
  /-- The next cycle was not due before now. -/
  late : now ≤ c.last + period

namespace Clock.Keeps

variable {c : Clock} {period start count now : Nat}

/-- A clock keeps the rate from its start on. -/
theorem init (period start : Nat) : Keeps ⟨period, start⟩ period start 0 start := by
  refine ⟨rfl, ?_, Nat.le_refl start, Nat.le_add_right _ _⟩
  rw [Nat.zero_mul, Nat.add_zero]

/-- A clock that keeps the rate never skips ahead. -/
theorem not_skipsAhead (h : c.Keeps period start count now) : ¬ c.SkipsAhead now := by
  rintro ⟨-, hskip⟩
  have hle : c.interval ≤ c.interval * maxBacklog := Nat.le_mul_of_pos_right _ (by decide)
  have hi := h.interval
  have hlate := h.late
  omega

/-- Working the backlog off keeps the rate. -/
theorem caughtUp (h : c.Keeps period start count now) :
    (c.caughtUp now).Keeps period start (count + c.backlog now) now := by
  have hwork : c.backlog now * c.interval ≤ now - c.last := Nat.div_mul_le_self _ _
  have hdue := h.due
  have hlate := h.late
  have hlast : (c.caughtUp now).last = c.last + c.backlog now * c.interval := rfl
  refine ⟨h.interval, ?_, by omega, by omega⟩
  rw [hlast, h.last, h.interval, Nat.add_mul, Nat.add_assoc]

/-- Resting no longer than until the next cycle keeps the rate. -/
theorem rest {time : Nat} (h : c.Keeps period start count now) (hle : time ≤ c.remaining now) :
    c.Keeps period start count (now + time) := by
  have hi := h.interval
  have hdue := h.due
  have hlate := h.late
  unfold remaining at hle
  exact ⟨hi, h.last, by omega, by omega⟩

/-- Without a backlog, the cycles given are the whole intervals since the start. -/
theorem count_eq (h : c.Keeps period start count now) (hpos : 0 < period)
    (hb : c.backlog now = 0) : count = (now - start) / period := by
  have hi := h.interval
  subst hi
  have hsum := cycles_add_backlog hpos h.last h.due
  rw [← hsum, hb, Nat.add_zero]

end Clock.Keeps

/-- Every look at a clock gives the time that it is. -/
def Move.ReadsAt (now : Nat) : Move → Prop
  | .work cpuNow timerNow => cpuNow = (fun _ => now) ∧ timerNow = fun _ => now
  | _ => True

namespace Loop

/-- How long a move takes. -/
def duration (l : Loop) (now : Nat) : Move → Nat
  | .rest => l.runner.idle now
  | _ => 0

/-- Moves lead from the one loop to the other, on a time that moves only while the machine rests,
and then by exactly the time it rests for. -/
inductive TimedRun (first : Loop) (start : Nat) : Loop → Nat → Prop
  | init : TimedRun first start first start
  | snoc {l : Loop} {now : Nat} {move : Move} :
    TimedRun first start l now → l.Allows move → move.ReadsAt now →
      TimedRun first start (l.next move) (now + l.duration now move)

/-- A timed run is one of the runs. -/
theorem TimedRun.run {first l : Loop} {start now : Nat} (h : TimedRun first start l now) :
    ∃ moves, Run first moves l := by
  induction h with
  | init => exact ⟨[], .nil⟩
  | snoc _ hallows _ ih =>
    obtain ⟨moves, hmoves⟩ := ih
    exact ⟨_, .snoc hmoves hallows⟩

/-- A move leads on to the time that is over then. -/
theorem TimedRun.step {first l : Loop} {start now later : Nat} (h : TimedRun first start l now)
    (move : Move) (hallows : l.Allows move) (hreads : move.ReadsAt now)
    (hlater : now + l.duration now move = later) : TimedRun first start (l.next move) later :=
  hlater ▸ h.snoc hallows hreads

/-- Both clocks keep their rates, in steps and ticks; nothing is due while the machine rests. -/
structure OnPace (m : Machine) (start : Nat) (l : Loop) (now : Nat) : Prop where
  /-- The clock for steps gave one cycle for each step. -/
  cpu : l.runner.cpuClock.Keeps m.config.clockInterval start (l.history.count .step) now
  /-- The clock for ticks gave one cycle for each tick. -/
  timer : l.runner.timerClock.Keeps m.config.timerInterval start (l.history.count .tick) now
  /-- Neither clock is late while the machine rests. -/
  rested : l.phase = .resting →
    l.runner.cpuClock.backlog now = 0 ∧ l.runner.timerClock.backlog now = 0

/-- The loop keeps the pace before the first look. -/
theorem OnPace.init (m : Machine) (now : Nat) :
    OnPace m now (start (.start m now)) now := by
  refine ⟨.init _ _, .init _ _, ?_⟩
  intro h
  cases h

variable {m : Machine} {start now : Nat} {l : Loop}

/-- A look into the inbox reaches neither a clock nor the cycles given. -/
theorem OnPace.look (h : OnPace m start l now) (hp : l.phase = .looking) :
    OnPace m start l.look now := by
  obtain ⟨hcpu, htimer, -⟩ := h
  rcases hr : l.inbox.receive with ⟨found, inbox⟩
  cases hh : l.runner.heed found with
  | proceed | stop =>
    simp only [Loop.look, hr, hh]
    refine ⟨hcpu, htimer, ?_⟩
    intro hrests
    cases hrests
  | again r =>
    obtain ⟨k, down, rfl, rfl⟩ := Runner.heed_again hh
    simp only [Loop.look, hr, hh, Received.operations]
    refine ⟨?_, ?_, ?_⟩
    · simpa [List.count_append] using hcpu
    · simpa [List.count_append] using htimer
    · intro hrests
      cases hp.symm.trans hrests

/-- An update without a fault works both backlogs off. -/
theorem OnPace.work (h : OnPace m start l now) (hcpu : 0 < m.config.clockInterval)
    (htimer : 0 < m.config.timerInterval)
    (hok : (l.runner.update (fun _ => now) (fun _ => now)).1.fault = none) :
    OnPace m start (l.work (fun _ => now) (fun _ => now)) now := by
  have hcpuPos : 0 < l.runner.cpuClock.interval := h.cpu.interval ▸ hcpu
  have htimerPos : 0 < l.runner.timerClock.interval := h.timer.interval ▸ htimer
  obtain ⟨hsteps, hticks, hc, ht⟩ := Runner.update_exact hcpuPos htimerPos h.cpu.not_skipsAhead
    h.timer.not_skipsAhead hok
  obtain ⟨hstepCount, htickCount⟩ := Report.count_operations hok
  refine ⟨?_, ?_, fun _ => ⟨?_, ?_⟩⟩
  · simp only [Loop.work, List.count_append, hstepCount, hsteps, hc]
    exact h.cpu.caughtUp
  · simp only [Loop.work, List.count_append, htickCount, hticks, ht]
    exact h.timer.caughtUp
  · simp only [Loop.work, hc]
    exact Clock.backlog_caughtUp _ _
  · simp only [Loop.work, ht]
    exact Clock.backlog_caughtUp _ _

/-- A rest ends before the next cycle of either clock is late. -/
theorem OnPace.rest (h : OnPace m start l now) :
    OnPace m start (l.next .rest) (now + l.runner.idle now) := by
  have hcpu : l.runner.idle now ≤ l.runner.cpuClock.remaining now :=
    Nat.le_trans (Nat.min_le_left _ _) (Nat.min_le_left _ _)
  have htimer : l.runner.idle now ≤ l.runner.timerClock.remaining now :=
    Nat.le_trans (Nat.min_le_left _ _) (Nat.min_le_right _ _)
  refine ⟨h.cpu.rest hcpu, h.timer.rest htimer, ?_⟩
  intro hrests
  cases hrests

/-- Every move that meets no fault keeps the pace. -/
theorem OnPace.next (h : OnPace m start l now) (hcpu : 0 < m.config.clockInterval)
    (htimer : 0 < m.config.timerInterval) {move : Move} (hallows : l.Allows move)
    (hreads : move.ReadsAt now) (hok : ∀ cause, (l.next move).phase ≠ .faulted cause) :
    OnPace m start (l.next move) (now + l.duration now move) := by
  cases move with
  | send c => exact ⟨h.cpu, h.timer, h.rested⟩
  | leave => exact ⟨h.cpu, h.timer, h.rested⟩
  | takeFrame => exact ⟨h.cpu, h.timer, h.rested⟩
  | look => exact h.look hallows
  | rest => exact h.rest
  | work cpuNow timerNow =>
    obtain ⟨rfl, rfl⟩ := hreads
    refine h.work hcpu htimer ?_
    cases hf : (l.runner.update (fun _ => now) (fun _ => now)).1.fault with
    | none => rfl
    | some cause => exact absurd (Report.phase_of_fault hf) (hok cause)

/-- The pace is kept over every timed run that met no fault. -/
theorem TimedRun.onPace (hcpu : 0 < m.config.clockInterval) (htimer : 0 < m.config.timerInterval)
    (h : TimedRun (Loop.start (.start m start)) start l now)
    (hok : ∀ cause, l.phase ≠ .faulted cause) : OnPace m start l now := by
  induction h with
  | init => exact OnPace.init m start
  | snoc _ hallows hreads ih =>
    refine (ih fun cause hf => ?_).next hcpu htimer hallows hreads hok
    exact hok cause ((next_of_faulted hf hallows).phase.trans hf)

/-- A machine that keeps the pace rests for some time. -/
theorem OnPace.idle_pos (h : OnPace m start l now) (hcpu : 0 < m.config.clockInterval)
    (htimer : 0 < m.config.timerInterval) (hrests : l.phase = .resting) :
    0 < l.runner.idle now := by
  obtain ⟨hc, ht⟩ := h.rested hrests
  have hcpuLeft := (Clock.remaining_pos_iff (h.cpu.interval ▸ hcpu)).mpr hc
  have htimerLeft := (Clock.remaining_pos_iff (h.timer.interval ▸ htimer)).mpr ht
  exact Nat.lt_min.mpr ⟨Nat.lt_min.mpr ⟨hcpuLeft, htimerLeft⟩, by decide⟩

end Loop

/-- Settings that were accepted ask for intervals that are not zero. -/
theorem Settings.interval_pos_of_check {s checked : Settings} (h : s.check = .ok checked) :
    0 < checked.config.clockInterval ∧ 0 < checked.config.timerInterval := by
  have hpos {hertz : Nat} (hfits : rateFits hertz = true) : 0 < (Rate.mk hertz).interval := by
    rw [rateFits, Bool.and_eq_true, decide_eq_true_eq] at hfits
    have hzero : (Rate.mk hertz).interval = 0 ↔ hertz = 0 := Rate.interval_eq_zero_iff _
    omega
  unfold check at h
  split at h
  · cases h
  · next hclock =>
    split at h
    · cases h
    · next htimer =>
      cases h
      rw [Bool.not_eq_true', Bool.not_eq_false] at hclock htimer
      exact ⟨hpos hclock, hpos htimer⟩

namespace Loop

/-- Whatever is sent and whenever, a running machine has made exactly the steps and ticks whose
intervals are over each time it rests; no clock skips ahead, and the rests are short but not
empty. Settings that were accepted ask for such a machine. -/
theorem timedRun_pace :
    (∀ s checked : Settings, s.check = .ok checked →
      0 < checked.config.clockInterval ∧ 0 < checked.config.timerInterval) ∧
    ∀ (m : Machine) (start now : Nat) (l : Loop),
      0 < m.config.clockInterval → 0 < m.config.timerInterval →
      TimedRun (Loop.start (.start m start)) start l now →
        (l.phase = .working → ∀ count,
          ¬ (l.runner.cpuClock.asked now count).SkipsAhead now ∧
            ¬ (l.runner.timerClock.asked now count).SkipsAhead now) ∧
        (l.phase = .resting →
          l.runner.machine = m.behind l.history ∧
            l.history.count .step = (now - start) / m.config.clockInterval ∧
            l.history.count .tick = (now - start) / m.config.timerInterval ∧
            0 < l.runner.idle now ∧ l.runner.idle now ≤ 2000000) := by
  refine ⟨fun _ _ => Settings.interval_pos_of_check, ?_⟩
  intro m start now l hcpu htimer hrun
  have hpace (hok : ∀ cause, l.phase ≠ .faulted cause) := hrun.onPace hcpu htimer hok
  constructor
  · intro hworks count
    have h := hpace fun cause hf => by cases hworks.symm.trans hf
    exact ⟨Clock.not_skipsAhead_asked h.cpu.not_skipsAhead count,
      Clock.not_skipsAhead_asked h.timer.not_skipsAhead count⟩
  · intro hrests
    have h := hpace fun cause hf => by cases hrests.symm.trans hf
    obtain ⟨hc, ht⟩ := h.rested hrests
    obtain ⟨moves, hmoves⟩ := hrun.run
    exact ⟨hmoves.machine_eq, h.cpu.count_eq hcpu hc, h.timer.count_eq htimer ht,
      h.idle_pos hcpu htimer hrests, Nat.min_le_right _ _⟩

/-- The loop of a new machine. -/
def ofNew : Loop := start (.start (.new .unset (Vector.replicate 8 0)) 0)

/-- It obeys a command, finds nothing more, and makes what is due at the start. -/
def firstRest : Loop :=
  (((ofNew.next (.send (.key 5 true))).next .look).next .look).next (.work (fun _ => 0) fun _ => 0)

/-- It rests until the first step is due, and makes it. -/
def secondRest : Loop :=
  ((firstRest.next .rest).next .look).next (.work (fun _ => 1428571) fun _ => 1428571)

private theorem phases_of_rests :
    firstRest.phase = .resting ∧ firstRest.runner.idle 0 = 1428571 ∧
      ((firstRest.next .rest).next .look).phase = .working ∧ secondRest.phase = .resting := by
  decide +kernel

private theorem timedRun_secondRest : TimedRun ofNew 0 secondRest 1428571 := by
  obtain ⟨hrests, hidle, hworks, -⟩ := phases_of_rests
  have hsent : TimedRun ofNew 0 (ofNew.next (.send (.key 5 true))) 0 :=
    TimedRun.init.step _ trivial trivial rfl
  have hobeyed : TimedRun ofNew 0 ((ofNew.next (.send (.key 5 true))).next .look) 0 :=
    hsent.step _ rfl trivial rfl
  have hfound : TimedRun ofNew 0 (((ofNew.next (.send (.key 5 true))).next .look).next .look) 0 :=
    hobeyed.step _ rfl trivial rfl
  have hfirst : TimedRun ofNew 0 firstRest 0 := hfound.step _ rfl ⟨rfl, rfl⟩ rfl
  have hrested : TimedRun ofNew 0 (firstRest.next .rest) 1428571 :=
    hfirst.step _ hrests trivial ((Nat.zero_add _).trans hidle)
  have hlooked : TimedRun ofNew 0 ((firstRest.next .rest).next .look) 1428571 :=
    hrested.step _ rfl trivial rfl
  exact hlooked.step _ hworks ⟨rfl, rfl⟩ rfl

/-- At its second rest the machine has made one step and no tick. -/
theorem timedRun_pace_secondRest :
    0 < Config.unset.clockInterval ∧ 0 < Config.unset.timerInterval ∧
      TimedRun ofNew 0 secondRest 1428571 ∧ secondRest.phase = .resting ∧
      secondRest.history.count .step = 1 ∧ secondRest.history.count .tick = 0 ∧
      0 < secondRest.runner.idle 1428571 := by
  have hcpu : 0 < Config.unset.clockInterval := by decide
  have htimer : 0 < Config.unset.timerInterval := by decide
  have hrests := phases_of_rests.2.2.2
  obtain ⟨-, hsteps, hticks, hidle, -⟩ :=
    (timedRun_pace.2 (.new .unset (Vector.replicate 8 0)) 0 1428571 secondRest hcpu htimer
      timedRun_secondRest).2 hrests
  refine ⟨hcpu, htimer, timedRun_secondRest, hrests, ?_, ?_, hidle⟩
  · exact hsteps
  · exact hticks

end Loop

end ChipEight
