import ChipEight.Clock
import ChipEight.Machine.Load
import ChipEight.Machine.Step

/-!
# Running a machine

A machine with a clock for its instructions and a clock for its timers. Again and again
it looks at the commands that were sent to it, makes the steps and ticks that came due,
hands out the screen if it changed, and rests until the next cycle. Commands come
through an inbox, in the order in which they were sent; the inbox is closed once its
sender is gone.
-/

namespace ChipEight

/-- What a host tells a running machine. -/
inductive Command
  /-- A key was put down or up. -/
  | key (k : Key) (down : Bool)
  /-- Stop. -/
  | quit
  deriving DecidableEq, Repr

/-- Commands on their way to a machine. -/
structure Inbox where
  /-- The commands that were sent and not received yet, oldest first. -/
  queue : List Command
  /-- More commands may come. -/
  isOpen : Bool
  deriving DecidableEq, Repr

/-- What a look into the inbox finds. -/
inductive Received
  | command (c : Command)
  /-- Nothing waits. -/
  | nothing
  /-- Nothing waits and nothing more will come. -/
  | closed
  deriving DecidableEq, Repr

namespace Inbox

/-- Nothing was sent yet. -/
def empty : Inbox := ⟨[], true⟩

/-- The inbox with one more command; nothing reaches a closed one. -/
def send (i : Inbox) (c : Command) : Inbox :=
  if i.isOpen then { i with queue := i.queue ++ [c] } else i

/-- The inbox after its sender is gone. -/
def close (i : Inbox) : Inbox := { i with isOpen := false }

/-- Look for a command. -/
def receive (i : Inbox) : Received × Inbox :=
  match i.queue with
  | c :: rest => (.command c, { i with queue := rest })
  | [] => (if i.isOpen then .nothing else .closed, i)

end Inbox

/-- A machine and its clocks. -/
structure Runner where
  /-- The machine. -/
  machine : Machine
  /-- The clock for steps. -/
  cpuClock : Clock
  /-- The clock for ticks. -/
  timerClock : Clock
  deriving DecidableEq

/-- What an update did. -/
structure Report where
  /-- Instructions that were executed, one that faulted included. -/
  steps : Nat
  /-- Ticks of the timers. -/
  ticks : Nat
  /-- Ticks that ended the sound. -/
  beeps : Nat
  /-- The screen, if it changed. -/
  frame : Option Screen
  /-- What stopped the machine, if something did. -/
  fault : Option StackFault
  deriving DecidableEq

/-- What the machine does after a look into its inbox. -/
inductive Heeded
  /-- Look again. -/
  | again (r : Runner)
  /-- Go on with the work. -/
  | proceed
  /-- Stop. -/
  | stop

namespace Runner

/-- The most cycles of a clock in one update. -/
def maxCycles : Nat := 1024

/-- The longest rest in nanoseconds. -/
def maxIdle : Nat := 2000000

/-- A machine whose cycles are counted from the given time. -/
def start (m : Machine) (now : Nat) : Runner :=
  ⟨m, ⟨m.config.clockInterval, now⟩, ⟨m.config.timerInterval, now⟩⟩

/-- Obey what was found in the inbox. -/
def heed (r : Runner) : Received → Heeded
  | .command (.key k down) => .again { r with machine := r.machine.setKey k down }
  | .command .quit => .stop
  | .nothing => .proceed
  | .closed => .stop

/-- Obey the commands that wait, up to the one that stops the machine; tells whether to go on. -/
def heedAll (r : Runner) (inbox : Inbox) : Bool × Runner × Inbox :=
  go inbox.isOpen r inbox.queue
where
  /-- Obey the waiting commands one by one. -/
  go (isOpen : Bool) (r : Runner) : List Command → Bool × Runner × Inbox
    | [] => (isOpen, r, ⟨[], isOpen⟩)
    | .key k down :: rest => go isOpen { r with machine := r.machine.setKey k down } rest
    | .quit :: rest => (false, r, ⟨rest, isOpen⟩)

/-- Make the steps that are due, with a reading of the time for each look at the clock; at most
`limit` more after those already done. Stops at a fault. -/
def stepDue (now : Nat → Nat) :
    (limit done : Nat) → Runner → Nat × Option StackFault × Runner
  | 0, done, r => (done, none, r)
  | limit + 1, done, r =>
    let (due, clock) := r.cpuClock.poll (now done)
    if due then
      let (outcome, m) := r.machine.step
      let r : Runner := { r with machine := m, cpuClock := clock }
      match outcome with
      | .ok _ => stepDue now limit (done + 1) r
      | .error fault => (done + 1, some fault, r)
    else (done, none, { r with cpuClock := clock })

/-- Make the ticks that are due, in the same way; counts the ticks and the ends of the sound. -/
def tickDue (now : Nat → Nat) : (limit done beeps : Nat) → Runner → Nat × Nat × Runner
  | 0, done, beeps, r => (done, beeps, r)
  | limit + 1, done, beeps, r =>
    let (due, clock) := r.timerClock.poll (now done)
    if due then
      let (expired, m) := r.machine.tick
      tickDue now limit (done + 1) (if expired then beeps + 1 else beeps)
        { r with machine := m, timerClock := clock }
    else (done, beeps, { r with timerClock := clock })

/-- Make the steps and ticks that are due and take the screen. After a fault nothing more is done.
The two readings give the time at each look at the two clocks. -/
def update (r : Runner) (cpuNow timerNow : Nat → Nat) : Report × Runner :=
  match stepDue cpuNow maxCycles 0 r with
  | (steps, some fault, r) => (⟨steps, 0, 0, none, some fault⟩, r)
  | (steps, none, r) =>
    let (ticks, beeps, r) := tickDue timerNow maxCycles 0 0 r
    let (frame, m) := r.machine.takeFrame
    (⟨steps, ticks, beeps, frame, none⟩, { r with machine := m })

/-- How long to rest from a time on. -/
def idle (r : Runner) (now : Nat) : Nat :=
  min (min (r.cpuClock.remaining now) (r.timerClock.remaining now)) maxIdle

/-- Obeying all waiting commands is looking into the inbox again and again. -/
theorem heedAll_eq (r : Runner) (inbox : Inbox) :
    r.heedAll inbox =
      match r.heed inbox.receive.1 with
      | .again next => next.heedAll inbox.receive.2
      | .proceed => (true, r, inbox.receive.2)
      | .stop => (false, r, inbox.receive.2) := by
  obtain ⟨queue, isOpen⟩ := inbox
  cases queue with
  | nil => cases isOpen <;> rfl
  | cons c rest => cases c <;> rfl

end Runner

end ChipEight
