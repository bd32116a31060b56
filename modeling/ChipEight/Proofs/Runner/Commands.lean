import ChipEight.Proofs.Machine.Interleaving
import ChipEight.Proofs.Runner.Loop

/-!
# Commands reach the machine

A host sends commands and leaves whenever it likes, and the machine looks for them between
its updates. Whatever the order of these moves, the keypad that an instruction sees is the
work of the commands that were sent, in their order and each of them once, up to some
command that was sent no earlier than the machine last looked. The first command to stop
is the last one that is received. From its sending on the machine makes one update at the
most, the one it is at included: a command that is sent in the middle of an update waits
in the inbox, which the update never opens.
-/

namespace ChipEight

/-- The command that was found, if one was. -/
def Received.command? : Received → Option Command
  | .command c => some c
  | .nothing | .closed => none

/-- The keypad after a command. -/
def Keypad.obey (p : Keypad) : Command → Keypad
  | .key k down => p.set k down
  | .quit => p

/-- Whether a move is an update. -/
def Move.isWork : Move → Bool
  | .work .. => true
  | _ => false

/-- What an update does leaves the keypad as it was, each part of it. -/
theorem Report.keypad_behind {p : Report} {m : Machine} {history : List Operation}
    (h : ∀ operation ∈ history, operation ∈ p.operations) :
    (m.behind history).keypad = m.keypad := by
  refine m.keypad_behind fun operation hmem => ?_
  rcases Report.mem_operations (h operation hmem) with rfl | rfl | rfl <;> exact ⟨rfl, rfl⟩

/-- What went through the inbox of a running machine. -/
structure Mail where
  /-- The commands that were sent before the host left, in their order. -/
  sent : List Command
  /-- What was found at each look, in their order. -/
  found : List Received
  /-- The commands that had been sent at the last look. -/
  checked : List Command
  deriving DecidableEq

namespace Mail

/-- Nothing was sent yet, and nothing looked for. -/
def nothing : Mail := ⟨[], [], []⟩

/-- A command is noted when it reaches the inbox, and a look with what it finds. -/
def note (s : Mail) (l : Loop) : Move → Mail
  | .send c => if l.inbox.isOpen then { s with sent := s.sent ++ [c] } else s
  | .look => ⟨s.sent, s.found ++ [l.inbox.receive.1], s.sent⟩
  | .leave | .takeFrame | .work .. | .rest => s

/-- The commands that the machine received, in their order. -/
def received (s : Mail) : List Command := s.found.filterMap Received.command?

variable {s : Mail} {l : Loop}

theorem received_look : (s.note l .look).received =
    s.received ++ l.inbox.receive.1.command?.toList := by
  simp only [note, received, List.filterMap_append]
  cases l.inbox.receive.1 <;> rfl

theorem mem_found_look {found : Received} :
    found ∈ (s.note l .look).found ↔ found ∈ s.found ∨ found = l.inbox.receive.1 := by
  simp only [note, List.mem_append, List.mem_singleton]

end Mail

namespace Loop

/-- What went through the inbox in a list of moves. -/
def mail (first : Loop) (moves : List Move) : Mail := watch Mail.note .nothing first moves

/-- What a look receives, and what waits after it, is what waited. -/
theorem queue_look (l : Loop) :
    l.inbox.receive.1.command?.toList ++ l.look.inbox.queue = l.inbox.queue := by
  obtain ⟨k, down, rest, hq, hr, hl⟩ | ⟨rest, hq, hr, hl⟩ | ⟨-, hr, hl⟩ | ⟨-, hr, hl⟩ :=
    l.look_cases
  · rw [hr, hl, hq]
    rfl
  · rw [hr, hl, hq]
    rfl
  · rw [hr, hl]
    rfl
  · rw [hr, hl]
    rfl

/-- A look obeys what it receives. -/
theorem keypad_look (l : Loop) :
    l.look.runner.machine.keypad =
      l.inbox.receive.1.command?.toList.foldl Keypad.obey l.runner.machine.keypad := by
  obtain ⟨k, down, rest, -, hr, hl⟩ | ⟨rest, -, hr, hl⟩ | ⟨-, hr, hl⟩ | ⟨-, hr, hl⟩ :=
    l.look_cases
  all_goals
    rw [hr, hl]
    rfl

/-- The machine obeyed what it received, which is what was sent without what still waits. -/
structure Obeys (keypad : Keypad) (s : Mail) (l : Loop) : Prop where
  /-- What was sent was received or waits. -/
  sent : s.sent = s.received ++ l.inbox.queue
  /-- The keys are those that the received commands leave. -/
  keypad : l.runner.machine.keypad = s.received.foldl Keypad.obey keypad
  /-- The machine works only when its last look found nothing more. -/
  checked : l.phase = .working → s.checked = s.received
  /-- Before the end, nothing that stops the machine was found. -/
  going : l.phase ≠ .finished → .quit ∉ s.received ∧ .closed ∉ s.found
  /-- A command to stop, or the end of all commands, is the last thing that was found. -/
  stopped : l.phase = .finished →
    (∃ kept, .quit ∉ kept ∧ s.received = kept ++ [.quit] ∧ .closed ∉ s.found) ∨
      (.quit ∉ s.received ∧ .closed ∈ s.found ∧ l.inbox = ⟨[], false⟩)

namespace Obeys

variable {keypad : Keypad} {s : Mail} {l last : Loop}

/-- A move that reaches neither the keypad nor the inbox. -/
theorem of_same (h : Obeys keypad s l) (hinbox : last.inbox = l.inbox)
    (hkeypad : last.runner.machine.keypad = l.runner.machine.keypad)
    (hworks : last.phase = .working → l.phase = .working)
    (hfinished : last.phase = .finished ↔ l.phase = .finished) : Obeys keypad s last := by
  refine ⟨?_, hkeypad.trans h.keypad, fun hw => h.checked (hworks hw), ?_, ?_⟩
  · rw [hinbox]
    exact h.sent
  · exact fun hp => h.going fun hf => hp (hfinished.mpr hf)
  · rw [hinbox]
    exact fun hf => h.stopped (hfinished.mp hf)

/-- A command that is sent waits behind the others. -/
theorem send (h : Obeys keypad s l) (c : Command) :
    Obeys keypad (s.note l (.send c)) (l.next (.send c)) := by
  cases hopen : l.inbox.isOpen with
  | false =>
    have hsend : l.inbox.send c = l.inbox := by simp only [Inbox.send, hopen]; rfl
    have hnote : s.note l (.send c) = s := by simp only [Mail.note, hopen]; rfl
    rw [hnote]
    exact h.of_same hsend rfl id Iff.rfl
  | true =>
    have hnote : s.note l (.send c) = { s with sent := s.sent ++ [c] } := by
      simp only [Mail.note, hopen, if_true]
    have hqueue : (l.inbox.send c).queue = l.inbox.queue ++ [c] := by
      simp only [Inbox.send, hopen, if_true]
    rw [hnote]
    refine ⟨?_, h.keypad, h.checked, h.going, fun hf => ?_⟩
    · change s.sent ++ [c] = s.received ++ (l.inbox.send c).queue
      rw [hqueue, h.sent, List.append_assoc]
    · refine (h.stopped hf).imp id ?_
      rintro ⟨-, -, hclosed⟩
      rw [hclosed] at hopen
      cases hopen

/-- A host that leaves closes the inbox. -/
theorem leave (h : Obeys keypad s l) : Obeys keypad s (l.next .leave) := by
  refine ⟨h.sent, h.keypad, h.checked, h.going, fun hf => ?_⟩
  refine (h.stopped hf).imp id ?_
  rintro ⟨hquit, hfound, hinbox⟩
  refine ⟨hquit, hfound, ?_⟩
  change l.inbox.close = _
  rw [hinbox]
  rfl

/-- A look receives the oldest command that waits. -/
theorem look (h : Obeys keypad s l) (hp : l.phase = .looking) :
    Obeys keypad (s.note l .look) l.look := by
  have hlooking : l.phase ≠ .finished := fun hf => by cases hp.symm.trans hf
  obtain ⟨hquit, hclosed⟩ := h.going hlooking
  have hreceived := Mail.received_look (s := s) (l := l)
  have hsent : s.sent = (s.note l .look).received ++ l.look.inbox.queue := by
    rw [h.sent, hreceived, List.append_assoc, l.queue_look]
  have hkeypad : l.look.runner.machine.keypad =
      (s.note l .look).received.foldl Keypad.obey keypad := by
    rw [hreceived, List.foldl_append, ← h.keypad, l.keypad_look]
  have hopen (hne : l.inbox.receive.1 ≠ .closed) : .closed ∉ (s.note l .look).found := by
    rw [Mail.mem_found_look]
    exact fun hmem => hmem.elim hclosed fun heq => hne heq.symm
  obtain ⟨k, down, rest, -, hr, hl⟩ | ⟨rest, -, hr, hl⟩ | ⟨hi, hr, hl⟩ | ⟨hi, hr, hl⟩ :=
    l.look_cases
  all_goals
    rw [hr] at hreceived hopen
    rw [hl] at hsent hkeypad ⊢
  · -- A key is obeyed, and the machine looks again.
    refine ⟨hsent, hkeypad, fun hw => (by cases hp.symm.trans hw),
      fun _ => ⟨?_, hopen Received.noConfusion⟩, fun hf => absurd hf hlooking⟩
    rw [hreceived]
    simpa [Received.command?] using hquit
  · -- The command to stop is received and nothing after it.
    exact ⟨hsent, hkeypad, fun hw => (by cases hw), fun hf => absurd rfl hf,
      fun _ => Or.inl ⟨s.received, hquit, hreceived, hopen Received.noConfusion⟩⟩
  · -- Nothing waits: all that was sent was received.
    have hreceived : (s.note l .look).received = s.received := hreceived.trans (List.append_nil _)
    refine ⟨hsent, hkeypad, fun _ => ?_, fun _ => ⟨hreceived ▸ hquit, hopen Received.noConfusion⟩,
      fun hf => by cases hf⟩
    change s.sent = _
    rw [hreceived, h.sent, hi]
    exact List.append_nil _
  · -- Nothing waits and nothing more will come.
    have hreceived : (s.note l .look).received = s.received := hreceived.trans (List.append_nil _)
    exact ⟨hsent, hkeypad, fun hw => (by cases hw), fun hf => absurd rfl hf,
      fun _ => Or.inr ⟨hreceived ▸ hquit, Mail.mem_found_look.mpr (Or.inr hr.symm), hi⟩⟩

/-- An update leaves the keypad and the inbox as they are. -/
theorem work (h : Obeys keypad s l) (hp : l.phase = .working) (cpuNow timerNow : Nat → Nat) :
    Obeys keypad s (l.work cpuNow timerNow) := by
  have hkeypad := congrArg Machine.keypad (l.runner.machine_update cpuNow timerNow)
  rw [Report.keypad_behind fun _ hmem => hmem] at hkeypad
  refine h.of_same rfl hkeypad (fun hw => ?_) ⟨fun hf => ?_, fun hf => ?_⟩
  · exact hp
  · exact absurd hf (Report.phase_ne _).2
  · cases hp.symm.trans hf

/-- Every move keeps the machine obeying. -/
theorem next (h : Obeys keypad s l) {move : Move} (hallows : l.Allows move) :
    Obeys keypad (s.note l move) (l.next move) := by
  cases move with
  | send c => exact h.send c
  | leave => exact h.leave
  | takeFrame => exact h.of_same rfl rfl id Iff.rfl
  | look => exact h.look hallows
  | work cpuNow timerNow => exact h.work hallows cpuNow timerNow
  | rest =>
    refine h.of_same rfl rfl (fun hw => by cases hw) ⟨fun hf => (by cases hf), fun hf => ?_⟩
    cases hf.symm.trans hallows

/-- Nothing behind a command to stop is received. -/
theorem received_prefix (h : Obeys keypad s l) {kept late : List Command}
    (hsent : s.sent = kept ++ .quit :: late) : s.received <+: kept ++ [.quit] := by
  have hupto : kept ++ [.quit] <+: s.sent := by
    rw [hsent]
    exact ⟨late, (List.append_cons kept .quit late).symm⟩
  have hreceived : s.received <+: s.sent := by
    rw [h.sent]
    exact List.prefix_append _ _
  rcases List.prefix_or_prefix_of_prefix hreceived hupto with hle | hle
  · exact hle
  · -- The command to stop was received, so it is the last.
    have hmem : .quit ∈ s.received := hle.subset (by simp)
    by_cases hf : l.phase = .finished
    · rcases h.stopped hf with ⟨first, hfirst, heq, -⟩ | ⟨hquit, -, -⟩
      · rw [heq] at hle ⊢
        rcases List.prefix_concat_iff.mp hle with hsame | hshort
        · exact ⟨[], (List.append_nil _).trans hsame.symm⟩
        · exact absurd (hshort.subset (by simp)) hfirst
      · exact absurd hmem hquit
    · exact absurd hmem (h.going hf).1

/-- The machine has finished where it received a command to stop, or received all and found its host
gone. -/
theorem finished_iff (h : Obeys keypad s l) :
    l.phase = .finished ↔ .quit ∈ s.received ∨
      .closed ∈ s.found ∧ s.received = s.sent ∧ l.inbox.isOpen = false := by
  constructor
  · intro hf
    refine (h.stopped hf).imp ?_ ?_
    · rintro ⟨kept, -, hreceived, -⟩
      rw [hreceived]
      exact List.mem_append_right _ (List.mem_singleton_self _)
    · rintro ⟨-, hfound, hinbox⟩
      rw [h.sent, hinbox]
      exact ⟨hfound, (List.append_nil _).symm, rfl⟩
  · intro hend
    by_contra hgoing
    obtain ⟨hquit, hclosed⟩ := h.going hgoing
    exact hend.elim hquit fun hfound => hclosed hfound.1

end Obeys

/-- The last look is the one that finds a command to stop, or nothing more to come. -/
theorem finished_look_iff {l : Loop} (hp : l.phase = .looking) :
    l.look.phase = .finished ↔
      l.inbox.queue.head? = some .quit ∨ l.inbox.queue = [] ∧ l.inbox.isOpen = false := by
  have hlooking : l.phase ≠ .finished := by
    rw [hp]
    exact Phase.noConfusion
  obtain ⟨k, down, rest, hq, -, hl⟩ | ⟨rest, hq, -, hl⟩ | ⟨hi, -, hl⟩ | ⟨hi, -, hl⟩ :=
    l.look_cases
  · simp [hl, hq, hlooking]
  · simp [hl, hq]
  · simp [hl, hi]
  · simp [hl, hi]

/-- A run keeps the machine obeying. -/
theorem Run.obeys {r : Runner} {moves : List Move} {l : Loop} (h : Run (start r) moves l) :
    Obeys r.machine.keypad (mail (start r) moves) l := by
  induction h with
  | nil =>
    refine ⟨rfl, rfl, fun hw => (by cases hw), fun _ => ⟨?_, ?_⟩, fun hf => by cases hf⟩
    · exact List.not_mem_nil
    · exact List.not_mem_nil
  | snoc hrun hallows ih =>
    rw [mail, watch_snoc, ← hrun.eq_after]
    exact ih.next hallows

/-! ### Stopping -/

/-- The machine has stopped, or a command to stop waits for it. -/
def Stops (l : Loop) : Prop := l.phase = .finished ∨ .quit ∈ l.inbox.queue

/-- The number of updates that the machine makes before it looks again. -/
def updatesLeft (l : Loop) : Nat := if l.phase = .working then 1 else 0

/-- The first loop has as much to do as the second one and some more updates. -/
structure Within (l last : Loop) (updates : Nat) : Prop where
  /-- The updates in between are among those that were left. -/
  updates : updates + last.updatesLeft ≤ l.updatesLeft
  /-- The steps in between fit into them. -/
  steps : last.history.count .step + 1024 * last.updatesLeft ≤
    l.history.count .step + 1024 * l.updatesLeft
  /-- The ticks in between fit into them. -/
  ticks : last.history.count .tick + 1024 * last.updatesLeft ≤
    l.history.count .tick + 1024 * l.updatesLeft

namespace Within

variable {l middle last : Loop} {first second : Nat}

theorem trans (h : l.Within middle first) (h' : middle.Within last second) :
    l.Within last (first + second) := by
  obtain ⟨hu, hs, ht⟩ := h
  obtain ⟨hu', hs', ht'⟩ := h'
  exact ⟨by omega, by omega, by omega⟩

/-- A move that is no update and makes none due. -/
theorem of_same (hleft : last.updatesLeft = l.updatesLeft)
    (hstep : last.history.count .step = l.history.count .step)
    (htick : last.history.count .tick = l.history.count .tick) : l.Within last 0 := by
  refine ⟨?_, ?_, ?_⟩ <;> omega

/-- An update makes a limited number of steps and ticks. -/
theorem work (hp : l.phase = .working) (cpuNow timerNow : Nat → Nat) :
    l.Within (l.work cpuNow timerNow) 1 := by
  have hleft : l.updatesLeft = 1 := if_pos hp
  have hnone : (l.work cpuNow timerNow).updatesLeft = 0 := if_neg (Report.phase_ne _).1
  obtain ⟨hsteps, hticks⟩ := l.runner.count_operations_update_le cpuNow timerNow
  have hmax : Runner.maxCycles = 1024 := rfl
  have hhistory : (l.work cpuNow timerNow).history =
      l.history ++ (l.runner.update cpuNow timerNow).1.operations := rfl
  refine ⟨?_, ?_, ?_⟩
  · omega
  · rw [hhistory, List.count_append]
    omega
  · rw [hhistory, List.count_append]
    omega

end Within

namespace Stops

variable {l last : Loop}

/-- A machine that stops makes no update after a look. -/
theorem look (h : l.Stops) (hp : l.phase = .looking) : l.look.Stops ∧ l.Within l.look 0 := by
  have hnone : l.updatesLeft = 0 := if_neg (by rw [hp]; exact Phase.noConfusion)
  have hquit : .quit ∈ l.inbox.queue := h.resolve_left (by rw [hp]; exact Phase.noConfusion)
  obtain ⟨k, down, rest, hq, -, hl⟩ | ⟨rest, -, -, hl⟩ | ⟨hi, -, -⟩ | ⟨hi, -, -⟩ := l.look_cases
  · rw [hq] at hquit
    have hrest : .quit ∈ rest := (List.mem_cons.mp hquit).resolve_left Command.noConfusion
    rw [hl]
    refine ⟨Or.inr hrest, Within.of_same rfl ?_ ?_⟩ <;> simp [List.count_append]
  · rw [hl]
    exact ⟨Or.inl rfl, Within.of_same hnone.symm rfl rfl⟩
  · rw [hi] at hquit
    cases hquit
  · rw [hi] at hquit
    cases hquit

/-- A machine that stops goes on with no update but the one it is at. -/
theorem next (h : l.Stops) {move : Move} (hallows : l.Allows move) :
    (l.next move).Stops ∧ l.Within (l.next move) (if move.isWork then 1 else 0) := by
  cases move with
  | send c =>
    refine ⟨h.imp id fun hquit => ?_, Within.of_same rfl rfl rfl⟩
    change .quit ∈ (l.inbox.send c).queue
    rw [Inbox.send]
    split
    · exact List.mem_append_left _ hquit
    · exact hquit
  | leave => exact ⟨h, Within.of_same rfl rfl rfl⟩
  | takeFrame => exact ⟨h, Within.of_same rfl rfl rfl⟩
  | look => exact h.look hallows
  | work cpuNow timerNow =>
    refine ⟨Or.inr (h.resolve_left fun hf => ?_), Within.work hallows cpuNow timerNow⟩
    cases hf.symm.trans hallows
  | rest =>
    have hnone : l.updatesLeft = 0 := if_neg (by rw [hallows]; exact Phase.noConfusion)
    refine ⟨Or.inr (h.resolve_left fun hf => ?_), Within.of_same hnone.symm rfl rfl⟩
    cases hf.symm.trans hallows

/-- However the run goes on, a machine that stops makes no update but the one it is at. -/
theorem run (h : l.Stops) {rest : List Move} (hrun : Run l rest last) :
    last.Stops ∧ l.Within last (rest.countP Move.isWork) := by
  induction hrun with
  | nil => exact ⟨h, Within.of_same rfl rfl rfl⟩
  | snoc _ hallows ih =>
    obtain ⟨hstops, hwithin⟩ := ih
    obtain ⟨hstops', hone⟩ := hstops.next hallows
    rw [List.countP_append, List.countP_singleton]
    exact ⟨hstops', hwithin.trans hone⟩

end Stops

/-- A command to stop that was sent waits in the inbox, unless the machine has stopped. -/
theorem Obeys.stops {keypad : Keypad} {s : Mail} {l : Loop} (h : Obeys keypad s l)
    (hquit : .quit ∈ s.sent) : l.Stops := by
  by_cases hf : l.phase = .finished
  · exact Or.inl hf
  · rw [h.sent] at hquit
    exact Or.inr ((List.mem_append.mp hquit).resolve_left (h.going hf).1)

/-- Whatever is sent and whenever: the machine receives a beginning of what was sent, and every
instruction sees the keypad as those commands leave it, among them all that had been sent when the
machine last looked. Nothing behind the first command to stop is received. The machine finishes
when it receives that command, or when it finds that all is received and its host gone. Once the
command to stop is sent, one update more and its limited number of steps and ticks is the most. -/
theorem commands_obeyed (r : Runner) (moves : List Move) (l : Loop)
    (h : Run (start r) moves l) :
    let s := mail (start r) moves
    s.received <+: s.sent ∧
    (l.phase = .working → s.checked <+: s.received ∧
      ∀ cpuNow timerNow before rest,
        (l.runner.update cpuNow timerNow).1.operations = before ++ .step :: rest →
          (l.runner.machine.behind before).keypad =
            s.received.foldl Keypad.obey r.machine.keypad) ∧
    (∀ kept late, s.sent = kept ++ .quit :: late → s.received <+: kept ++ [.quit]) ∧
    (l.phase = .finished ↔ .quit ∈ s.received ∨
      .closed ∈ s.found ∧ s.received = s.sent ∧ l.inbox.isOpen = false) ∧
    (l.phase = .looking → (l.look.phase = .finished ↔
      l.inbox.queue.head? = some .quit ∨ l.inbox.queue = [] ∧ l.inbox.isOpen = false)) ∧
    (.quit ∈ s.sent → ∀ rest last, Run l rest last →
      rest.countP Move.isWork ≤ 1 ∧
      last.history.count .step ≤ l.history.count .step + 1024 ∧
      last.history.count .tick ≤ l.history.count .tick + 1024) := by
  intro s
  have hs : Obeys r.machine.keypad s l := h.obeys
  refine ⟨?_, fun hw => ⟨?_, ?_⟩, fun _ _ => hs.received_prefix, hs.finished_iff,
    finished_look_iff, ?_⟩
  · rw [hs.sent]
    exact List.prefix_append _ _
  · exact ⟨[], (List.append_nil _).trans (hs.checked hw)⟩
  · intro cpuNow timerNow before rest hoperations
    rw [← hs.keypad]
    refine Report.keypad_behind (p := (l.runner.update cpuNow timerNow).1) fun operation hmem => ?_
    rw [hoperations]
    exact List.mem_append_left _ hmem
  · intro hquit rest last hrest
    obtain ⟨hu, hsteps, hticks⟩ := ((hs.stops hquit).run hrest).2
    have hone : l.updatesLeft ≤ 1 := by
      rw [updatesLeft]
      split <;> decide
    exact ⟨by omega, by omega, by omega⟩

/-- A key goes down and the machine looks twice; while it works, it is told to stop. -/
def stoppingMoves : List Move :=
  [.send (.key 5 true), .look, .look, .send .quit, .send (.key 6 true)]

/-- The machine makes its update and looks again. -/
def lastMoves : List Move := [.work (fun _ => 1428571) (fun _ => 0), .rest, .look]

/-- The instruction sees the one key, and the machine finishes at its next look. -/
theorem commands_obeyed_stopping :
    let first := start (.start (.new .unset (Vector.replicate 8 0)) 0)
    let l := first.after stoppingMoves
    let last := l.after lastMoves
    let s := mail first stoppingMoves
    Run first stoppingMoves l ∧ l.phase = .working ∧ Run l lastMoves last ∧
      last.phase = .finished ∧ s.sent = [.key 5 true] ++ .quit :: [.key 6 true] ∧
      s.received = [.key 5 true] ∧ s.received <+: [.key 5 true] ++ [.quit] ∧
      (l.runner.update (fun _ => 1428571) fun _ => 0).1.operations =
        [] ++ .step :: [.takeFrame] ∧
      (l.runner.machine.behind []).keypad = Keypad.released.set 5 true ∧
      lastMoves.countP Move.isWork ≤ 1 ∧
      last.history.count .step ≤ l.history.count .step + 1024 := by
  intro first l last s
  have hevaluated : first.AllowsAll stoppingMoves ∧ l.phase = .working ∧
      l.AllowsAll lastMoves ∧ last.phase = .finished ∧
      s.sent = [.key 5 true] ++ .quit :: [.key 6 true] ∧ s.received = [.key 5 true] ∧
      (l.runner.update (fun _ => 1428571) fun _ => 0).1.operations =
        [] ++ .step :: [.takeFrame] := by
    decide +kernel
  obtain ⟨hallows, hworks, hgoes, hfinished, hsent, hreceived, hoperations⟩ := hevaluated
  have hrun : Run first stoppingMoves l := Run.nil.append hallows
  have hrest : Run l lastMoves last := Run.nil.append hgoes
  obtain ⟨-, hsees, hprefix, -, -, hstops⟩ := commands_obeyed _ stoppingMoves l hrun
  have hquit : .quit ∈ s.sent := by
    rw [hsent]
    exact List.mem_append_right _ List.mem_cons_self
  have hkeypad := (hsees hworks).2 _ _ [] _ hoperations
  obtain ⟨hone, hsteps, -⟩ := hstops hquit lastMoves last hrest
  exact ⟨hrun, hworks, hrest, hfinished, hsent, hreceived, hprefix _ _ hsent, hoperations,
    hkeypad.trans (congrArg _ hreceived), hone, hsteps⟩

end Loop

end ChipEight
