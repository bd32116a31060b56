import ChipEight.Proofs.Runner.Pacing
import ChipEight.Session

/-!
# Sessions are timed runs

A session makes the moves of a running machine and of its host in one fixed order. So what
holds of every timed run holds of every session; in particular the machine of a session
with intervals that are not zero always finds something to rest for.
-/

namespace ChipEight

/-- Where the loop is at the end of a session. -/
def Ending.phase : Ending → Phase
  | .finished => .finished
  | .faulted cause => .faulted cause
  | .stalled => .resting

namespace Session

/-- The session is at the loop. -/
structure At (s : Session) (l : Loop) : Prop where
  /-- The machines and their clocks are equal. -/
  runner : s.runner = l.runner
  /-- The same commands wait. -/
  inbox : s.inbox = l.inbox
  /-- The same frame waits. -/
  slot : s.slot = l.slot

open Loop (TimedRun)

variable {first l : Loop} {start now : Nat}

/-- Looking until nothing waits is obeying all waiting commands. -/
theorem timedRun_heedAll (h : TimedRun first start l now) (hp : l.phase = .looking) :
    ∃ last, TimedRun first start last now ∧
      (l.runner.heedAll l.inbox).2 = (last.runner, last.inbox) ∧ last.slot = l.slot ∧
      last.phase = if (l.runner.heedAll l.inbox).1 then .working else .finished := by
  obtain ⟨phase, runner, ⟨queue, isOpen⟩, slot, beeps, history⟩ := l
  obtain rfl : phase = .looking := hp
  induction queue generalizing runner history with
  | nil =>
    refine ⟨_, h.step .look rfl trivial rfl, ?_⟩
    cases isOpen <;> exact ⟨rfl, rfl, rfl⟩
  | cons c rest ih =>
    cases c with
    | quit => exact ⟨_, h.step .look rfl trivial rfl, rfl, rfl, rfl⟩
    | key k down => exact ih _ _ (h.step .look rfl trivial rfl)

/-- The commands of a host are sent one by one. -/
theorem timedRun_sends (commands : List (Nat × Command)) (h : TimedRun first start l now) :
    ∃ last, TimedRun first start last now ∧ last.phase = l.phase ∧ last.runner = l.runner ∧
      last.slot = l.slot ∧
      last.inbox = commands.foldl (fun inbox c => inbox.send c.2) l.inbox := by
  induction commands generalizing l with
  | nil => exact ⟨l, h, rfl, rfl, rfl, rfl⟩
  | cons c rest ih => exact ih (h.step (.send c.2) trivial trivial rfl)

/-- What a host does after a rest are moves of a host. -/
theorem timedRun_host {s : Session} (h : TimedRun first start l now) (hat : s.At l)
    (leaveAt : Nat) :
    ∃ last, TimedRun first start last now ∧ last.phase = l.phase ∧
      (s.host now leaveAt).At last := by
  obtain ⟨hrunner, hinbox, hslot⟩ := hat
  have htaken := h.step .takeFrame trivial trivial rfl
  obtain ⟨sent, hsent, hp, hr, hs, hi⟩ :=
    timedRun_sends (s.commands.takeWhile (·.1 ≤ now)) htaken
  by_cases hleave : leaveAt ≤ now
  · refine ⟨_, hsent.step .leave trivial trivial rfl, hp, ?_, ?_, hs.symm⟩
    · exact hrunner.trans hr.symm
    · simp only [host, direct, observe, if_pos hleave, hinbox]
      exact congrArg Inbox.close hi.symm
  · refine ⟨sent, hsent, hp, ?_, ?_, hs.symm⟩
    · exact hrunner.trans hr.symm
    · simp only [host, direct, observe, if_neg hleave, hinbox]
      exact hi.symm

/-- A closed inbox stops the machine. -/
theorem heedAll_of_closed (r : Runner) {inbox : Inbox} (h : inbox.isOpen = false) :
    (r.heedAll inbox).1 = false := by
  obtain ⟨queue, isOpen⟩ := inbox
  obtain rfl : isOpen = false := h
  induction queue generalizing r with
  | nil => rfl
  | cons c rest ih =>
    cases c with
    | quit => rfl
    | key k down => exact ih _

/-- A host that left does not come back. -/
theorem isOpen_host (s : Session) (now leaveAt : Nat) (h : leaveAt ≤ now) :
    (s.host now leaveAt).inbox.isOpen = false := by
  simp only [host, direct, if_pos h, Inbox.close]

/-! ### Rounds -/

/-- The session after a round: what the machine obeyed and did. -/
def after (s : Session) (runner : Runner) (inbox : Inbox) (report : Report) : Session :=
  { s with
    runner := runner
    inbox := inbox
    slot := s.slot.publish? report.frame
    beeps := s.beeps + report.beeps }

section Rounds

variable {s : Session} {leaveAt : Nat} {runner next : Runner} {inbox : Inbox} {report : Report}

theorem go_of_stop (hheed : s.runner.heedAll s.inbox = (false, runner, inbox)) :
    s.go now leaveAt = finish { s with runner := runner, inbox := inbox } now .finished := by
  rw [go, hheed]
  rfl

theorem go_of_fault {cause : StackFault}
    (hheed : s.runner.heedAll s.inbox = (true, runner, inbox))
    (hupdate : runner.update (fun _ => now) (fun _ => now) = (report, next))
    (hfault : report.fault = some cause) :
    s.go now leaveAt = (s.after next inbox report).finish now (.faulted cause) := by
  rw [go, hheed]
  simp only [hupdate, hfault]
  rfl

theorem go_of_ok (hheed : s.runner.heedAll s.inbox = (true, runner, inbox))
    (hupdate : runner.update (fun _ => now) (fun _ => now) = (report, next))
    (hok : report.fault = none) :
    s.go now leaveAt =
      if now < now + next.idle now ∧ now < leaveAt then
        ((s.after next inbox report).host (now + next.idle now) leaveAt).go
          (now + next.idle now) leaveAt
      else (s.after next inbox report).finish now .stalled := by
  rw [go, hheed]
  simp only [hupdate, hok]
  rfl

/-- A round is made of moves of the machine. -/
theorem timedRun_round (h : TimedRun first start l now) (hp : l.phase = .looking) (hat : s.At l)
    (hheed : s.runner.heedAll s.inbox = (true, runner, inbox))
    (hupdate : runner.update (fun _ => now) (fun _ => now) = (report, next)) :
    ∃ last, TimedRun first start last now ∧ (s.after next inbox report).At last ∧
      last.phase = report.phase := by
  obtain ⟨obeyed, hobeyed, hrest, hslot, hphase⟩ := timedRun_heedAll h hp
  rw [← hat.runner, ← hat.inbox, hheed] at hrest hphase
  obtain ⟨hrunner, hinbox⟩ := Prod.mk.inj hrest
  have hworked := hobeyed.step (.work (fun _ => now) fun _ => now) hphase ⟨rfl, rfl⟩ rfl
  refine ⟨_, hworked, ⟨?_, ?_, ?_⟩, ?_⟩
  · simp only [Loop.next, Loop.work, ← hrunner, hupdate, after]
  · simp only [Loop.next, Loop.work, hinbox, after]
  · simp only [Loop.next, Loop.work, ← hrunner, hupdate, hslot, hat.slot, after]
  · simp only [Loop.next, Loop.work, ← hrunner, hupdate]

end Rounds

/-- A session leads to the loop of a timed run; it stalls only where there is nothing to rest for.
-/
theorem timedRun_go {s : Session} {leaveAt : Nat} (h : TimedRun first start l now)
    (hp : l.phase = .looking) (hat : s.At l)
    (hclosed : leaveAt ≤ now → s.inbox.isOpen = false) :
    ∃ last, TimedRun first start last (s.go now leaveAt).time ∧
      last.phase = (s.go now leaveAt).ending.phase ∧
      ((s.go now leaveAt).ending = .stalled →
        last.runner.idle (s.go now leaveAt).time = 0) := by
  induction hleft : leaveAt - now using Nat.strongRecOn generalizing s l now with
  | ind left ih =>
    rcases hheed : s.runner.heedAll s.inbox with ⟨proceeds, runner, inbox⟩
    cases proceeds with
    | false =>
      obtain ⟨last, hlast, -, -, hphase⟩ := timedRun_heedAll h hp
      rw [← hat.runner, ← hat.inbox, hheed] at hphase
      rw [go_of_stop hheed]
      exact ⟨last, hlast, hphase, fun hs => by cases hs⟩
    | true =>
      rcases hupdate : runner.update (fun _ => now) (fun _ => now) with ⟨report, next⟩
      obtain ⟨last, hlast, hafter, hphase⟩ := timedRun_round h hp hat hheed hupdate
      cases hfault : report.fault with
      | some cause =>
        rw [Report.phase_of_fault hfault] at hphase
        rw [go_of_fault hheed hupdate hfault]
        exact ⟨last, hlast, hphase, fun hs => by cases hs⟩
      | none =>
        rw [Report.phase_of_ok hfault] at hphase
        rw [go_of_ok hheed hupdate hfault]
        have hopen : now < leaveAt := by
          refine Nat.lt_of_not_le fun hle => ?_
          have hstops := heedAll_of_closed s.runner (hclosed hle)
          rw [hheed] at hstops
          cases hstops
        by_cases hlater : now < now + next.idle now
        · rw [if_pos ⟨hlater, hopen⟩]
          have hduration : now + last.duration now .rest = now + next.idle now := by
            rw [Loop.duration, ← hafter.runner]
            rfl
          have hrested := hlast.step .rest hphase trivial hduration
          have hat' : (s.after next inbox report).At (last.next .rest) :=
            ⟨hafter.runner, hafter.inbox, hafter.slot⟩
          obtain ⟨looked, hlooked, hp', hat''⟩ := timedRun_host hrested hat' leaveAt
          exact ih _ (by omega) hlooked hp' hat'' (isOpen_host _ _ _) rfl
        · rw [if_neg fun hboth => hlater hboth.1]
          refine ⟨last, hlast, hphase, fun _ => ?_⟩
          change last.runner.idle now = 0
          rw [← hafter.runner]
          change next.idle now = 0
          omega

/-- A session of a machine whose intervals are not zero ends by itself, and not because its time
stands still. -/
theorem ending_run_ne_stalled {m : Machine} (hcpu : 0 < m.config.clockInterval)
    (htimer : 0 < m.config.timerInterval) (script : Script) :
    (run m script).ending ≠ .stalled := by
  intro hstalled
  have hfirst : (Session.start (.start m 0) script).At (Loop.start (.start m 0)) := ⟨rfl, rfl, rfl⟩
  obtain ⟨looked, hlooked, hp, hat⟩ := timedRun_host .init hfirst script.leaveAt
  obtain ⟨last, hlast, hphase, hidle⟩ := timedRun_go hlooked hp hat (isOpen_host _ _ _)
  have hrests : last.phase = .resting := hphase.trans (congrArg Ending.phase hstalled)
  have hpace := hlast.onPace hcpu htimer fun cause hf => by cases hrests.symm.trans hf
  exact Nat.ne_of_gt (hpace.idle_pos hcpu htimer hrests) (hidle hstalled)

end Session

end ChipEight
