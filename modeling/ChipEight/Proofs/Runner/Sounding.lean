import ChipEight.Proofs.Machine.Timers
import ChipEight.Proofs.Runner.Faulting

/-!
# Every sound ends once

The host hears of the end of a sound by a beep. A beep is one tick that ended a sound; each of
them has a start of its own, and a sound that is left alone ends exactly at the tick that its
start named.
-/

namespace ChipEight

namespace Machine

variable {m : Machine} {t : Timer} {v : UInt8}

/-- An instruction that sets a timer leaves it at that value. -/
theorem timer_step_of_sets (h : m.sets? t = some v) : m.step.2.timer t = v := by
  rw [timer_step, h]
  rfl

theorem pendingEnds_new (config : Config) (key : Vector UInt32 8) :
    (new config key).pendingEnds = 0 := rfl

end Machine

/-- From a new machine on, whatever its host does, a tick ends a sound only if an instruction
started one since the last tick that did, so no more ticks do so than instructions started a
sound. A sound set to a number of ticks ends at the tick of this number and at no other, as long
as no instruction sets it again, and the delay so set is counted down by the ticks to zero. An
update tells its host of a beep for each of its ticks that ended a sound. -/
theorem sounds_end_once :
    (∀ config key before, ((Machine.new config key).behind before).tick.1 = true →
      ∃ n ∈ (Machine.new config key).executions before, n.startsSound = true) ∧
    (∀ m : Machine, m.tick.1 = true → ∀ between, (m.tick.2.behind between).tick.1 = true →
      ∃ n ∈ m.tick.2.executions between, n.startsSound = true) ∧
    (∀ config key history,
      ((Machine.new config key).replies history).count (.ticked true) ≤
        ((Machine.new config key).executions history).countP Machine.startsSound) ∧
    (∀ (m : Machine) v, m.sets? .sound = some v → ∀ history,
      (∀ n ∈ m.step.2.executions history, n.sets? .sound = none) →
      m.step.2.tickAnswers history =
        (List.range (history.count .tick)).map fun i => i + 1 == v.toNat) ∧
    (∀ (m : Machine) v, m.sets? .delay = some v → ∀ history,
      (∀ n ∈ m.step.2.executions history, n.sets? .delay = none) →
      (m.step.2.behind history).delayTimer.toNat = v.toNat - history.count .tick) ∧
    ∀ (r : Runner) (cpuNow timerNow : Nat → Nat),
      let p := (r.update cpuNow timerNow).1
      (r.update cpuNow timerNow).2.machine = r.machine.behind p.operations ∧
        p.beeps = (r.machine.replies p.operations).count (.ticked true) := by
  refine ⟨fun config key before h => ?_, fun m h between hnext => ?_, fun config key history => ?_,
    fun m v hset history hunset => ?_, fun m v hset history hunset => ?_,
    fun r cpuNow timerNow => ?_⟩
  · exact Machine.starts_of_expired (Machine.pendingEnds_new config key) h
  · exact Machine.starts_of_expired (Machine.pendingEnds_of_expired h).2 hnext
  · have hle := (Machine.new config key).ends_le_starts history
    rw [Machine.pendingEnds_new, Machine.count_tickAnswers] at hle
    omega
  · have hv : m.step.2.soundTimer = v := Machine.timer_step_of_sets hset
    rw [Machine.tickAnswers_eq hunset, hv]
  · have hv : m.step.2.timer .delay = v := Machine.timer_step_of_sets hset
    rw [← hv]
    exact Machine.timer_behind hunset
  · exact ⟨r.machine_update cpuNow timerNow, (r.update_told cpuNow timerNow).beeps⟩

/-- A new machine. -/
def silent : Machine := .new .unset (Vector.replicate 8 0)

/-- A program that sets the sound to two ticks, then the delay, then the sound again. -/
def hummingLoad : Operation := .loadProgram [0x60, 0x02, 0xF0, 0x18, 0xF0, 0x15, 0xF0, 0x18]

/-- The sound ends with the second tick behind either instruction that sets it, and with no other;
the delay that is set in between runs out and stays at zero. -/
theorem sounds_end_once_humming :
    let before := [hummingLoad, .run 2, .tick]
    let ended := silent.behind before
    let between := [.step, .tick, .tick, .step, .tick]
    let setting := silent.behind [hummingLoad, .step]
    let delaying := silent.behind [hummingLoad, .run 2]
    let ticks := [.tick, .step, .tick, .tick]
    let r := Runner.start setting 0
    let p := (r.update (fun _ => 1428571) fun _ => 33333332).1
    (ended.tick.1 = true ∧ ∃ n ∈ silent.executions before, n.startsSound = true) ∧
      ((ended.tick.2.behind between).tick.1 = true ∧
        ∃ n ∈ ended.tick.2.executions between, n.startsSound = true) ∧
      (silent.replies before).count (.ticked true) ≤
        (silent.executions before).countP Machine.startsSound ∧
      (setting.sets? .sound = some 2 ∧
        setting.step.2.tickAnswers ticks = (List.range 3).map fun i => i + 1 == 2) ∧
      (delaying.sets? .delay = some 2 ∧
        (delaying.step.2.behind [.tick, .tick, .tick]).delayTimer.toNat = 2 - 3) ∧
      p.beeps = 1 ∧ p.beeps = (r.machine.replies p.operations).count (.ticked true) := by
  intro before ended between setting delaying ticks r p
  obtain ⟨hfirst, hnext, hcount, hsound, hdelay, hupdate⟩ := sounds_end_once
  have hended : ended.tick.1 = true := by decide +kernel
  have hagain : (ended.tick.2.behind between).tick.1 = true := by decide +kernel
  have hset : setting.sets? .sound = some 2 := by decide +kernel
  have hsetDelay : delaying.sets? .delay = some 2 := by decide +kernel
  have hquiet : (setting.step.2.executions ticks).all fun n => (n.sets? .sound).isNone := by
    decide +kernel
  have hbeep : p.beeps = 1 := by decide +kernel
  have hlone : delaying.step.2.executions [.tick, .tick, .tick] = [] := rfl
  refine ⟨⟨hended, hfirst _ _ before hended⟩, ⟨hagain, hnext ended hended between hagain⟩,
    hcount _ _ before, ⟨hset, ?_⟩, ⟨hsetDelay, ?_⟩, hbeep, (hupdate r _ _).2⟩
  · refine hsound setting 2 hset ticks fun n hn => ?_
    exact Option.isNone_iff_eq_none.mp (List.all_eq_true.mp hquiet n hn)
  · refine hdelay delaying 2 hsetDelay [.tick, .tick, .tick] fun n hn => ?_
    rw [hlone] at hn
    cases hn

end ChipEight
