import ChipEight.FrameSlot
import ChipEight.Proofs.Runner.Update

/-!
# A running machine and its host

The loop of a running machine as a system that takes one move after another. The machine
looks into its inbox until nothing waits, works, and rests; a host may at any moment send
a command, leave, or take the frame that waits. `Run` has every order of these moves, with
any readings of the time while the machine works. What was done to the machine so far is
kept as a history, and `Run.machine_eq` proves that the machine is where it leads. After a
fault the machine makes no move.
-/

namespace ChipEight

/-- Where a running machine is in its loop. -/
inductive Phase
  /-- It looks into its inbox. -/
  | looking
  /-- It found nothing more and makes what is due. -/
  | working
  /-- It made what was due and rests. -/
  | resting
  /-- It was told to stop, or its host was gone. -/
  | finished
  /-- An instruction could not be executed. -/
  | faulted (cause : StackFault)
  deriving DecidableEq, Repr

/-- A running machine and what lies between it and its host. -/
structure Loop where
  /-- What the machine does next, or how it ended. -/
  phase : Phase
  /-- The machine and its clocks. -/
  runner : Runner
  /-- The commands on their way to the machine. -/
  inbox : Inbox
  /-- The frame on its way to the host. -/
  slot : FrameSlot
  /-- Beeps so far. -/
  beeps : Nat
  /-- What was done to the machine so far. -/
  history : List Operation
  deriving DecidableEq

/-- One move of the host or of the machine. -/
inductive Move
  | send (c : Command)
  | leave
  | takeFrame
  | look
  | work (cpuNow timerNow : Nat → Nat)
  | rest

/-- What obeying does to the machine. -/
def Received.operations : Received → List Operation
  | .command (.key k down) => [.setKey k down]
  | .command .quit | .nothing | .closed => []

/-- Where a running machine is after an update. -/
def Report.phase (p : Report) : Phase :=
  match p.fault with
  | some cause => .faulted cause
  | none => .resting

theorem Report.phase_of_fault {p : Report} {cause : StackFault} (h : p.fault = some cause) :
    p.phase = .faulted cause := by
  rw [phase, h]

theorem Report.phase_of_ok {p : Report} (h : p.fault = none) : p.phase = .resting := by
  rw [phase, h]

/-- After an update the machine rests or has met a fault. -/
theorem Report.phase_ne (p : Report) : p.phase ≠ .working ∧ p.phase ≠ .finished := by
  rw [phase]
  split <;> exact ⟨Phase.noConfusion, Phase.noConfusion⟩

/-- Only the change of a key makes the machine look again. -/
theorem Runner.heed_again {r next : Runner} {found : Received} (h : r.heed found = .again next) :
    ∃ k down, found = .command (.key k down) ∧
      next = { r with machine := r.machine.setKey k down } := by
  cases found with
  | command c =>
    cases c with
    | key k down =>
      cases h
      exact ⟨k, down, rfl, rfl⟩
    | quit => cases h
  | nothing => cases h
  | closed => cases h

namespace Loop

/-- The loop before the first look. -/
def start (r : Runner) : Loop := ⟨.looking, r, .empty, .empty, 0, []⟩

/-- The loop after one look into the inbox. -/
def look (l : Loop) : Loop :=
  let (found, inbox) := l.inbox.receive
  match l.runner.heed found with
  | .again r =>
    { l with runner := r, inbox := inbox, history := l.history ++ found.operations }
  | .proceed => { l with phase := .working, inbox := inbox }
  | .stop => { l with phase := .finished, inbox := inbox }

/-- The loop after an update. -/
def work (l : Loop) (cpuNow timerNow : Nat → Nat) : Loop :=
  let (report, r) := l.runner.update cpuNow timerNow
  { l with
    phase := report.phase
    runner := r
    slot := l.slot.publish? report.frame
    beeps := l.beeps + report.beeps
    history := l.history ++ report.operations }

/-- What a look finds and what it leads to. -/
theorem look_cases (l : Loop) :
    (∃ k down rest, l.inbox.queue = .key k down :: rest ∧
      l.inbox.receive.1 = .command (.key k down) ∧
      l.look =
        { l with
          runner := { l.runner with machine := l.runner.machine.setKey k down }
          inbox := { l.inbox with queue := rest }
          history := l.history ++ [.setKey k down] }) ∨
      (∃ rest, l.inbox.queue = .quit :: rest ∧ l.inbox.receive.1 = .command .quit ∧
        l.look = { l with phase := .finished, inbox := { l.inbox with queue := rest } }) ∨
      (l.inbox = ⟨[], true⟩ ∧ l.inbox.receive.1 = .nothing ∧
        l.look = { l with phase := .working }) ∨
      (l.inbox = ⟨[], false⟩ ∧ l.inbox.receive.1 = .closed ∧
        l.look = { l with phase := .finished }) := by
  obtain ⟨phase, runner, ⟨queue, isOpen⟩, slot, beeps, history⟩ := l
  cases queue with
  | cons c rest =>
    cases c with
    | key k down => exact Or.inl ⟨k, down, rest, rfl, rfl, rfl⟩
    | quit => exact Or.inr (Or.inl ⟨rest, rfl, rfl, rfl⟩)
  | nil =>
    cases isOpen with
    | true => exact Or.inr (Or.inr (Or.inl ⟨rfl, rfl, rfl⟩))
    | false => exact Or.inr (Or.inr (Or.inr ⟨rfl, rfl, rfl⟩))

/-- Whether a move can be made. The host can always move, the machine does one thing at a time. -/
def Allows (l : Loop) : Move → Prop
  | .look => l.phase = .looking
  | .work .. => l.phase = .working
  | .rest => l.phase = .resting
  | .send _ | .leave | .takeFrame => True

/-- The loop after a move. -/
def next (l : Loop) : Move → Loop
  | .send c => { l with inbox := l.inbox.send c }
  | .leave => { l with inbox := l.inbox.close }
  | .takeFrame => { l with slot := l.slot.take.2 }
  | .look => l.look
  | .work cpuNow timerNow => l.work cpuNow timerNow
  | .rest => { l with phase := .looking }

/-- The moves lead from the one loop to the other. -/
inductive Run (first : Loop) : List Move → Loop → Prop
  | nil : Run first [] first
  | snoc {moves : List Move} {l : Loop} {move : Move} :
    Run first moves l → l.Allows move → Run first (moves ++ [move]) (l.next move)

/-- The loop after a list of moves. -/
def after (first : Loop) (moves : List Move) : Loop := moves.foldl next first

/-- What someone has noted after a list of moves who looks at the loop before each of them. -/
def watch {α : Type} (note : α → Loop → Move → α) (notes : α) (first : Loop) : List Move → α
  | [] => notes
  | move :: rest => watch note (note notes first move) (first.next move) rest

theorem after_append (first : Loop) (before rest : List Move) :
    first.after (before ++ rest) = (first.after before).after rest :=
  List.foldl_append

theorem Run.eq_after {first l : Loop} {moves : List Move} (h : Run first moves l) :
    l = first.after moves := by
  induction h with
  | nil => rfl
  | snoc _ _ ih =>
    rw [after_append, ← ih]
    rfl

/-- Whether the moves can be made one after another. -/
def AllowsAll (l : Loop) : List Move → Prop
  | [] => True
  | move :: rest => l.Allows move ∧ (l.next move).AllowsAll rest

instance (l : Loop) (move : Move) : Decidable (l.Allows move) :=
  match move with
  | .look => inferInstanceAs (Decidable (l.phase = .looking))
  | .work .. => inferInstanceAs (Decidable (l.phase = .working))
  | .rest => inferInstanceAs (Decidable (l.phase = .resting))
  | .send _ | .leave | .takeFrame => inferInstanceAs (Decidable True)

instance decidableAllowsAll (l : Loop) : (moves : List Move) → Decidable (l.AllowsAll moves)
  | [] => isTrue trivial
  | move :: rest =>
    have := decidableAllowsAll (l.next move) rest
    inferInstanceAs (Decidable (l.Allows move ∧ (l.next move).AllowsAll rest))

/-- A run can go on with moves that can be made one after another. -/
theorem Run.append {first l : Loop} {moves rest : List Move} (h : Run first moves l)
    (ha : l.AllowsAll rest) : Run first (moves ++ rest) (l.after rest) := by
  induction rest generalizing moves l with
  | nil =>
    rw [List.append_nil]
    exact h
  | cons move rest ih =>
    obtain ⟨hmove, hrest⟩ := ha
    have hrun := ih (h.snoc hmove) hrest
    rw [List.append_assoc] at hrun
    exact hrun

/-- The last move is noted with a look at the loop before it. -/
theorem watch_snoc {α : Type} (note : α → Loop → Move → α) (notes : α) (first : Loop)
    (moves : List Move) (move : Move) :
    watch note notes first (moves ++ [move]) =
      note (watch note notes first moves) (first.after moves) move := by
  induction moves generalizing notes first with
  | nil => rfl
  | cons head rest ih => exact ih _ _

/-- The two loops differ in their inboxes and in the frame that waits, at most. -/
structure SameMachine (l last : Loop) : Prop where
  /-- Both do the same next. -/
  phase : last.phase = l.phase
  /-- The machines and their clocks are equal. -/
  runner : last.runner = l.runner
  /-- The same was done to both machines. -/
  history : last.history = l.history
  /-- Both beeped equally often. -/
  beeps : last.beeps = l.beeps

theorem SameMachine.refl (l : Loop) : l.SameMachine l := ⟨rfl, rfl, rfl, rfl⟩

theorem SameMachine.trans {l middle last : Loop} (h : l.SameMachine middle)
    (h' : middle.SameMachine last) : l.SameMachine last :=
  ⟨h'.phase.trans h.phase, h'.runner.trans h.runner, h'.history.trans h.history,
    h'.beeps.trans h.beeps⟩

/-- After a fault the host can only send, leave, and take what was handed out before. -/
theorem next_of_faulted {l : Loop} {cause : StackFault} (h : l.phase = .faulted cause)
    {move : Move} (hallows : l.Allows move) : l.SameMachine (l.next move) := by
  cases move with
  | look => cases h.symm.trans hallows
  | work cpuNow timerNow => cases h.symm.trans hallows
  | rest => cases h.symm.trans hallows
  | send c | leave | takeFrame => exact ⟨rfl, rfl, rfl, rfl⟩

variable {l : Loop} {m : Machine}

/-- A look into the inbox does to the machine what was found. -/
theorem machine_look (h : l.runner.machine = m.behind l.history) :
    l.look.runner.machine = m.behind l.look.history := by
  rcases hr : l.inbox.receive with ⟨found, inbox⟩
  cases hh : l.runner.heed found with
  | again r =>
    obtain ⟨k, down, rfl, rfl⟩ := Runner.heed_again hh
    simp only [look, hr, hh, Machine.behind_append, h]
    rfl
  | proceed | stop => simpa only [look, hr, hh] using h

/-- An update does to the machine what it reports. -/
theorem machine_work (h : l.runner.machine = m.behind l.history) (cpuNow timerNow : Nat → Nat) :
    (l.work cpuNow timerNow).runner.machine =
      m.behind (l.work cpuNow timerNow).history := by
  have hm := l.runner.machine_update cpuNow timerNow
  rw [h] at hm
  exact hm.trans (m.behind_append _ _).symm

/-- A move keeps the machine where the history leads. -/
theorem machine_next (h : l.runner.machine = m.behind l.history) (move : Move) :
    (l.next move).runner.machine = m.behind (l.next move).history := by
  cases move with
  | look => exact machine_look h
  | work cpuNow timerNow => exact machine_work h cpuNow timerNow
  | send c => exact h
  | leave => exact h
  | takeFrame => exact h
  | rest => exact h

/-- The machine is always where its history leads. -/
theorem Run.machine_eq {r : Runner} {moves : List Move} (h : Run (start r) moves l) :
    l.runner.machine = r.machine.behind l.history := by
  induction h with
  | nil => rfl
  | snoc _ _ ih => exact machine_next ih _

end Loop

end ChipEight
