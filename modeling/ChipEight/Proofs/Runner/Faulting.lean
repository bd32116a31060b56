import ChipEight.Proofs.Machine.Faulting
import ChipEight.Proofs.Runner.Loop

/-!
# A fault ends everything

A running machine counts its beeps and hands out frames as the replies of its machine tell
it to, and it has met a fault exactly where one of them is a fault. That reply is the last
one: no instruction and no tick follows, so neither do a beep and a frame, and whatever the host
does then, the machine stays as the fault left it.
-/

namespace ChipEight

namespace Reply

/-- The screen that is handed over with a reply. -/
def frame? : Reply → Option Screen
  | .frame screen => screen
  | _ => none

/-- Whether a reply tells of a fault. -/
def isFault : Reply → Bool
  | .fault _ => true
  | _ => false

end Reply

/-- What is known of a machine's operations is what it replied to them: the beeps, the frames, and
a fault, which is the last reply where there is one. -/
structure Told (fault : Option StackFault) (beeps : Nat) (frames : List Screen)
    (replies : List Reply) : Prop where
  /-- There are as many beeps as ticks that ended the sound. -/
  beeps : beeps = replies.count (.ticked true)
  /-- The frames are those that were taken from the machine. -/
  frames : frames = replies.filterMap Reply.frame?
  /-- A known fault is the last reply, and no other reply is a fault. -/
  fault : ∃ before, (∀ reply ∈ before, reply.isFault = false) ∧
    replies = before ++ fault.toList.map fun cause => .fault (.stack cause)

namespace Told

variable {fault : Option StackFault} {beeps beeps' : Nat} {frames frames' : List Screen}
  {replies replies' : List Reply}

theorem nil : Told none 0 [] [] := by
  refine ⟨rfl, rfl, [], ?_, rfl⟩
  intro reply h
  cases h

/-- Where nothing faulted, more can be told. -/
theorem append (h : Told none beeps frames replies) (h' : Told fault beeps' frames' replies') :
    Told fault (beeps + beeps') (frames ++ frames') (replies ++ replies') := by
  obtain ⟨hbeeps, hframes, before, hbefore, hreplies⟩ := h
  obtain ⟨hbeeps', hframes', before', hbefore', hreplies'⟩ := h'
  refine ⟨?_, ?_, before ++ before', ?_, ?_⟩
  · rw [hbeeps, hbeeps', List.count_append]
  · rw [hframes, hframes', List.filterMap_append]
  · intro reply hmem
    exact (List.mem_append.mp hmem).elim (hbefore reply) (hbefore' reply)
  · rw [hreplies, hreplies']
    simp

/-- A single reply that is no fault. -/
theorem single (reply : Reply) (h : reply.isFault = false) :
    Told none (if reply = .ticked true then 1 else 0) reply.frame?.toList [reply] := by
  refine ⟨?_, ?_, [reply], ?_, by simp⟩
  · simp [List.count_singleton]
  · cases hf : reply.frame? <;> simp [hf]
  · intro other hmem
    rw [List.mem_singleton.mp hmem]
    exact h

theorem single_fault (cause : StackFault) : Told (some cause) 0 [] [.fault (.stack cause)] := by
  refine ⟨rfl, rfl, [], ?_, rfl⟩
  intro reply h
  cases h

/-- The replies tell whether there was a fault, and which. -/
theorem fault_eq_some_iff (h : Told fault beeps frames replies) (cause : StackFault) :
    fault = some cause ↔ .fault (.stack cause) ∈ replies := by
  obtain ⟨before, hbefore, rfl⟩ := h.fault
  have hnone : .fault (.stack cause) ∉ before := by
    intro hmem
    cases hbefore _ hmem
  cases fault <;> simp [hnone, eq_comm]

/-- Nothing comes behind a fault. -/
theorem eq_nil_of_fault (h : Told fault beeps frames replies) {before after : List Reply}
    {cause : Fault} (hreplies : replies = before ++ .fault cause :: after) : after = [] := by
  obtain ⟨clean, hclean, hall⟩ := h.fault
  have hmem : .fault cause ∉ clean := by
    intro hmem
    cases hclean _ hmem
  obtain rfl | ⟨rest, last, rfl⟩ := List.eq_nil_or_concat after
  · rfl
  · -- otherwise the fault is among the replies in front of the last one
    have hinit : replies = (before ++ .fault cause :: rest) ++ [last] := by
      rw [hreplies, List.concat_eq_append, List.append_assoc, List.cons_append]
    rw [hall] at hinit
    refine absurd ?_ hmem
    cases fault with
    | none =>
      rw [Option.toList_none, List.map_nil, List.append_nil] at hinit
      simp [hinit]
    | some found =>
      rw [(List.append_inj' hinit rfl).1]
      simp

end Told

namespace Runner

/-- The replies to due steps tell of the fault that ended them. -/
theorem stepDue_told (now : Nat → Nat) (limit done : Nat) (r : Runner) :
    ∃ count, (stepDue now limit done r).1 = done + count ∧
      Told (stepDue now limit done r).2.1 0 []
        (r.machine.replies (List.replicate count .step)) := by
  induction limit generalizing done r with
  | zero => exact ⟨0, rfl, .nil⟩
  | succ limit ih =>
    rcases hp : r.cpuClock.poll (now done) with ⟨due, clock⟩
    cases due with
    | false =>
      rw [stepDue_of_not_due hp]
      exact ⟨0, rfl, .nil⟩
    | true =>
      rcases hs : r.machine.step with ⟨outcome, m⟩
      have happly : r.machine.apply .step = (.ofFlow outcome, m) := by
        rw [Machine.apply, hs]
      cases outcome with
      | error cause =>
        rw [stepDue_of_error hp hs]
        refine ⟨1, rfl, ?_⟩
        rw [List.replicate_one, Machine.replies_cons, happly]
        exact .single_fault cause
      | ok flow =>
        rw [stepDue_of_ok hp hs]
        obtain ⟨count, hcount, htold⟩ := ih (done + 1) { r with machine := m, cpuClock := clock }
        refine ⟨count + 1, by omega, ?_⟩
        rw [List.replicate_succ, Machine.replies_cons, happly]
        exact (Told.single (.flow flow) rfl).append htold

/-- The replies to due ticks tell of the ends of the sound. -/
theorem tickDue_told (now : Nat → Nat) (limit done beeps : Nat) (r : Runner) :
    ∃ count ended, (tickDue now limit done beeps r).1 = done + count ∧
      (tickDue now limit done beeps r).2.1 = beeps + ended ∧
      Told none ended [] (r.machine.replies (List.replicate count .tick)) := by
  induction limit generalizing done beeps r with
  | zero => exact ⟨0, 0, rfl, rfl, .nil⟩
  | succ limit ih =>
    rcases hp : r.timerClock.poll (now done) with ⟨due, clock⟩
    cases due with
    | false =>
      rw [tickDue_of_not_due hp]
      exact ⟨0, 0, rfl, rfl, .nil⟩
    | true =>
      rw [tickDue_of_due hp]
      obtain ⟨count, ended, hcount, hended, htold⟩ :=
        ih (done + 1) (if r.machine.tick.1 then beeps + 1 else beeps)
          { r with machine := r.machine.tick.2, timerClock := clock }
      refine ⟨count + 1, (if r.machine.tick.1 then 1 else 0) + ended, by omega, ?_, ?_⟩
      · rw [hended]
        split <;> omega
      · rw [List.replicate_succ, Machine.replies_cons]
        have hone := Told.single (.ticked r.machine.tick.1) rfl
        simp only [Reply.ticked.injEq] at hone
        exact hone.append htold

/-- An update reports what the replies to its operations tell. -/
theorem update_told (r : Runner) (cpuNow timerNow : Nat → Nat) :
    let p := (r.update cpuNow timerNow).1
    Told p.fault p.beeps p.frame.toList (r.machine.replies p.operations) := by
  obtain ⟨steps, hsteps, hstepped⟩ := stepDue_told cpuNow maxCycles 0 r
  obtain ⟨steps', -, hsteps', hmachine, -⟩ := stepDue_machine cpuNow maxCycles 0 r
  rcases hs : stepDue cpuNow maxCycles 0 r with ⟨made, fault, next⟩
  rw [hs, Nat.zero_add] at hsteps hsteps'
  rw [hs] at hstepped hmachine
  obtain rfl : made = steps := hsteps
  obtain rfl : made = steps' := hsteps'
  cases fault with
  | some cause =>
    rw [update_of_fault timerNow hs]
    rw [← List.append_nil (List.replicate made _)] at hstepped
    exact hstepped
  | none =>
    obtain ⟨ticks, ended, hticks, hended, hticked⟩ := tickDue_told timerNow maxCycles 0 0 next
    obtain ⟨ticks', -, hticks', hmachine', -⟩ := tickDue_machine timerNow maxCycles 0 0 next
    rw [Nat.zero_add] at hticks hended hticks'
    obtain rfl : ticks = ticks' := hticks.symm.trans hticks'
    rw [update_of_ok timerNow hs, hticks, hended, hmachine']
    have hframe := Told.single
      (.frame (next.machine.behind (List.replicate ticks .tick)).takeFrame.1) rfl
    have hall := hstepped.append (hticked.append hframe)
    rw [Nat.zero_add, List.nil_append, List.nil_append] at hall
    simp only [Report.operations, Machine.replies_append, ← hmachine]
    exact hall

end Runner

/-- The fault that a running machine has met. -/
def Phase.fault? : Phase → Option StackFault
  | .faulted cause => some cause
  | _ => none

theorem Phase.fault?_eq_some_iff (p : Phase) (cause : StackFault) :
    p.fault? = some cause ↔ p = .faulted cause := by
  cases p <;> simp [fault?]

theorem Report.fault?_phase (p : Report) : p.phase.fault? = p.fault := by
  unfold phase
  cases p.fault <;> rfl

namespace Loop

/-- The frames that a move hands out. -/
def handsOut (l : Loop) : Move → List Screen
  | .work cpuNow timerNow => (l.runner.update cpuNow timerNow).1.frame.toList
  | .send _ | .leave | .takeFrame | .look | .rest => []

/-- The frames that are handed out over a list of moves. -/
def published (first : Loop) (moves : List Move) : List Screen :=
  watch (fun frames l move => frames ++ l.handsOut move) [] first moves

variable {l : Loop} {m : Machine}

/-- A look reaches neither fault nor beep nor frame. -/
theorem look_told {frames : List Screen} (hp : l.phase = .looking)
    (h : Told l.phase.fault? l.beeps frames (m.replies l.history)) :
    Told l.look.phase.fault? l.look.beeps frames (m.replies l.look.history) := by
  rw [hp] at h
  obtain ⟨k, down, rest, -, -, hl⟩ | ⟨rest, -, -, hl⟩ | ⟨-, -, hl⟩ | ⟨-, -, hl⟩ := l.look_cases
  · rw [hl, hp]
    have hkey := h.append (Told.single .done rfl)
    rw [Machine.replies_append, ← List.append_nil frames]
    exact hkey
  all_goals
    rw [hl]
    exact h

/-- A move of the machine or of its host is told by the replies to what it did. -/
theorem next_told {frames : List Screen} (hm : l.runner.machine = m.behind l.history)
    (h : Told l.phase.fault? l.beeps frames (m.replies l.history)) {move : Move}
    (hallows : l.Allows move) :
    Told (l.next move).phase.fault? (l.next move).beeps (frames ++ l.handsOut move)
      (m.replies (l.next move).history) := by
  cases move with
  | work cpuNow timerNow =>
    have hp : l.phase = .working := hallows
    have hupdate := l.runner.update_told cpuNow timerNow
    rw [hp] at h
    rw [hm] at hupdate
    simp only [next, work, Report.fault?_phase, Machine.replies_append]
    exact h.append hupdate
  | look =>
    rw [handsOut, List.append_nil]
    exact look_told hallows h
  | rest =>
    have hp : l.phase = .resting := hallows
    rw [handsOut, List.append_nil]
    rw [hp] at h
    exact h
  | send c | leave | takeFrame =>
    rw [handsOut, List.append_nil]
    exact h

theorem Run.told {r : Runner} {moves : List Move} (h : Run (start r) moves l) :
    Told l.phase.fault? l.beeps (published (start r) moves) (r.machine.replies l.history) := by
  induction h with
  | nil => exact .nil
  | snoc hrun hallows ih =>
    rw [published, watch_snoc, ← hrun.eq_after]
    exact next_told hrun.machine_eq ih hallows

/-- After a fault nothing is handed out. -/
theorem handsOut_of_faulted {cause : StackFault} (h : l.phase = .faulted cause) {move : Move}
    (hallows : l.Allows move) : l.handsOut move = [] := by
  cases move with
  | work cpuNow timerNow => cases h.symm.trans hallows
  | send c | leave | takeFrame | look | rest => rfl

/-- A fault is the end, whatever the host does. -/
theorem Run.of_faulted {cause : StackFault} (h : l.phase = .faulted cause) {rest : List Move}
    {last : Loop} (hrun : Run l rest last) : l.SameMachine last ∧ l.published rest = [] := by
  induction hrun with
  | nil => exact ⟨.refl l, rfl⟩
  | @snoc moves middle move hrun hallows ih =>
    obtain ⟨hsame, hnone⟩ := ih
    have hfaulted := hsame.phase.trans h
    refine ⟨hsame.trans (next_of_faulted hfaulted hallows), ?_⟩
    rw [published, watch_snoc, ← hrun.eq_after]
    change l.published moves ++ middle.handsOut move = []
    rw [hnone, handsOut_of_faulted hfaulted hallows, List.append_nil]

end Loop

/-- A step of a reachable machine faults exactly where a call finds the stack full or a return finds
it empty, and then the machine stands behind the instruction and is otherwise as it was. A run
makes its steps up to the first that faults, and answers as that one or as the last one. A running
machine ends with a fault exactly where one of its steps faulted; nothing is done to it after that
step, and its beeps and its frames are those that it replied with, whatever its host does then. -/
theorem faults_exact_and_final :
    (∀ m : Machine, m.Reachable → ∀ cause,
      (m.step.1 = .error cause ↔
        cause = .overflow ∧ Word.group m.fetch = 0x2 ∧ m.calls.depth = 16 ∨
          cause = .underflow ∧ m.fetch = 0x00EE ∧ m.calls.depth = 0) ∧
      (m.step.1 = .error cause → m.step.2 = { m with counter := m.counter + 2 })) ∧
    (∀ m : Machine, m.run 0 = (.ok .ok, m) ∧ ∀ count, ∃ done ≤ count,
      (∀ i < done, ∃ flow, (m.stepped i).step.1 = .ok flow) ∧
      (done = count ∨ ∃ cause, (m.stepped done).step.1 = .error cause) ∧
      m.run (count + 1) = ((m.stepped done).step.1, m.stepped (done + 1))) ∧
    ∀ (r : Runner) (moves : List Move) (l : Loop), Loop.Run (.start r) moves l →
      let replies := r.machine.replies l.history
      l.runner.machine = r.machine.behind l.history ∧
      (∀ cause, l.phase = .faulted cause ↔ .fault (.stack cause) ∈ replies) ∧
      (∀ before fault after, replies = before ++ .fault fault :: after → after = []) ∧
      l.beeps = replies.count (.ticked true) ∧
      Loop.published (.start r) moves = replies.filterMap Reply.frame? ∧
      ∀ cause rest last, l.phase = .faulted cause → Loop.Run l rest last →
        l.SameMachine last ∧ l.published rest = [] := by
  refine ⟨fun m hm cause => ?_, fun m => ⟨rfl, fun count => ?_⟩, fun r moves l hrun => ?_⟩
  · exact ⟨Machine.step_eq_error_iff (Machine.fits_of_reachable hm), Machine.step_of_error⟩
  · exact Machine.run_go_succ (.ok .ok) count m
  · have htold := hrun.told
    refine ⟨hrun.machine_eq, fun cause => ?_, fun before fault after => htold.eq_nil_of_fault,
      htold.beeps, htold.frames, fun cause rest last hf => Loop.Run.of_faulted hf⟩
    rw [← Phase.fault?_eq_some_iff]
    exact htold.fault_eq_some_iff cause

theorem Runner.machine_start (m : Machine) (now : Nat) : (Runner.start m now).machine = m := rfl

/-- A machine whose program calls itself until the stack is full. -/
def recursing : Machine :=
  (Machine.new .unset (Vector.replicate 8 0)).behind [.loadProgram [0x22, 0x00], .run 16]

/-- It looks for commands and makes what is due: one step. A tick is due behind the fault. -/
def recursingMoves : List Move := [.look, .work (fun _ => 1428571) fun _ => 16666666]

/-- The next step overflows the stack, also as the first of a longer run, and ends the loop, which
made one step and no tick. -/
theorem faults_exact_and_final_recursing :
    let first := Loop.start (.start recursing 0)
    let last := first.after recursingMoves
    recursing.Reachable ∧ Word.group recursing.fetch = 0x2 ∧ recursing.calls.depth = 16 ∧
      recursing.step.1 = .error .overflow ∧
      recursing.step.2 = { recursing with counter := recursing.counter + 2 } ∧
      recursing.run 5 = (.error .overflow, recursing.stepped 1) ∧
      Loop.Run first recursingMoves last ∧ last.history = [.step] ∧
      last.phase = .faulted .overflow ∧
      .fault (.stack .overflow) ∈ recursing.replies last.history ∧
      last.SameMachine (last.after [.takeFrame, .leave]) := by
  intro first last
  obtain ⟨hstep, hruns, hloop⟩ := faults_exact_and_final
  have hreachable : recursing.Reachable := ⟨_, _, _, rfl⟩
  have hword : Word.group recursing.fetch = 0x2 ∧ recursing.calls.depth = 16 := by decide +kernel
  have hfault : recursing.step.1 = .error .overflow :=
    (hstep recursing hreachable .overflow).1.mpr (Or.inl ⟨rfl, hword.1, hword.2⟩)
  have hafter := (hstep recursing hreachable .overflow).2 hfault
  have hrun : recursing.run 5 = (.error .overflow, recursing.stepped 1) := by
    obtain ⟨done, -, hbefore, -, hrun⟩ := (hruns recursing).2 4
    have hnone : done = 0 := by
      refine Nat.eq_zero_of_not_pos fun hpos => ?_
      obtain ⟨flow, hok⟩ := hbefore 0 hpos
      rw [Machine.stepped_zero, hfault] at hok
      cases hok
    rw [hnone, Machine.stepped_zero, hfault] at hrun
    exact hrun
  have hallows : first.AllowsAll recursingMoves := by decide +kernel
  have hmoves : Loop.Run first recursingMoves last := Loop.Run.nil.append hallows
  have hlast : last.history = [.step] ∧ last.phase = .faulted .overflow := by decide +kernel
  obtain ⟨-, hphase, -, -, -, hfinal⟩ := hloop (.start recursing 0) recursingMoves last hmoves
  have hleft : Loop.Run last [.takeFrame, .leave] (last.after [.takeFrame, .leave]) :=
    Loop.Run.nil.append ⟨trivial, trivial, trivial⟩
  have hreplied := (hphase .overflow).mp hlast.2
  rw [Runner.machine_start] at hreplied
  exact ⟨hreachable, hword.1, hword.2, hfault, hafter, hrun, hmoves, hlast.1, hlast.2, hreplied,
    (hfinal .overflow _ _ hlast.2 hleft).1⟩

end ChipEight
