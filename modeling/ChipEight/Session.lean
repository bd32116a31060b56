import ChipEight.FrameSlot
import ChipEight.Runner

/-!
# Sessions

A running machine together with a host that follows a script, on a time of their own
that moves only while the machine rests, and then by exactly the time it rests for. The
host looks at the machine before the start and after every rest: it notes the beeps and
the frame that wait, sends the commands whose time has come, and is gone once the time
of its script is over.
-/

namespace ChipEight

/-- What a host will do. -/
structure Script where
  /-- The commands with their times, in the order of the times. -/
  commands : List (Nat × Command)
  /-- The time when the host leaves. -/
  leaveAt : Nat
  deriving DecidableEq, Repr

/-- What a host saw, and when. -/
inductive Note
  | beep (time : Nat)
  | frame (time : Nat) (screen : Screen)
  deriving DecidableEq

/-- How a session ended. -/
inductive Ending
  /-- The machine was told to stop, or its host was gone. -/
  | finished
  /-- An instruction could not be executed. -/
  | faulted (cause : StackFault)
  /-- The machine had nothing to rest for, so that time stood still. -/
  | stalled
  deriving DecidableEq, Repr

/-- The end of a session. -/
structure Outcome where
  /-- How it ended. -/
  ending : Ending
  /-- When it ended. -/
  time : Nat
  /-- What the host saw, in order. -/
  notes : List Note
  deriving DecidableEq

/-- A machine, what lies between it and its host, and what the host still has to do and has seen. -/
structure Session where
  /-- The machine and its clocks. -/
  runner : Runner
  /-- The commands on their way to the machine. -/
  inbox : Inbox
  /-- The frame on its way to the host. -/
  slot : FrameSlot
  /-- Beeps that the host has not noted yet. -/
  beeps : Nat
  /-- Commands that the host has not sent yet. -/
  commands : List (Nat × Command)
  /-- What the host saw, latest first. -/
  notes : List Note
  deriving DecidableEq

namespace Session

/-- A session before the host's first look. -/
def start (r : Runner) (script : Script) : Session :=
  ⟨r, .empty, .empty, 0, script.commands, []⟩

/-- The host notes what waits. -/
def observe (s : Session) (now : Nat) : Session :=
  let beeps := List.replicate s.beeps (.beep now)
  let (frame, slot) := s.slot.take
  let frames := (frame.map (Note.frame now)).toList
  { s with beeps := 0, slot := slot, notes := frames ++ beeps ++ s.notes }

/-- The host sends the commands whose time has come, and leaves when it is time. -/
def direct (s : Session) (now leaveAt : Nat) : Session :=
  let due := s.commands.takeWhile (·.1 ≤ now)
  let inbox := due.foldl (fun inbox c => inbox.send c.2) s.inbox
  { s with
    commands := s.commands.drop due.length
    inbox := if leaveAt ≤ now then inbox.close else inbox }

/-- The host looks at the machine. -/
def host (s : Session) (now leaveAt : Nat) : Session := (s.observe now).direct now leaveAt

/-- The end of a session, after a last look at what waits. -/
def finish (s : Session) (now : Nat) (ending : Ending) : Outcome :=
  ⟨ending, now, (s.observe now).notes.reverse⟩

/-- The machine works and rests until it stops. While it works, its host is there as long as the
time of the script is not over, so every further round begins later and before the end. -/
def go (s : Session) (now leaveAt : Nat) : Outcome :=
  let (proceeds, runner, inbox) := s.runner.heedAll s.inbox
  let s := { s with runner := runner, inbox := inbox }
  if !proceeds then s.finish now .finished
  else
    let (report, runner) := s.runner.update (fun _ => now) (fun _ => now)
    let s := { s with
      runner := runner
      beeps := s.beeps + report.beeps
      slot := s.slot.publish? report.frame }
    match report.fault with
    | some cause => s.finish now (.faulted cause)
    | none =>
      let later := now + runner.idle now
      if now < later ∧ now < leaveAt then go (s.host later leaveAt) later leaveAt
      else s.finish now .stalled
termination_by leaveAt - now
decreasing_by omega

/-- A session from its start to its end. -/
def run (m : Machine) (script : Script) : Outcome :=
  ((start (Runner.start m 0) script).host 0 script.leaveAt).go 0 script.leaveAt

end Session

end ChipEight
