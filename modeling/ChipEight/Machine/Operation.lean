import ChipEight.Machine.Load
import ChipEight.Machine.Step

/-!
# Histories of a machine

Everything that can be done to a machine, as values: instructions, and what its host
does in between. A history is a list of operations; a machine is reachable if some
history leads to it from a new one.
-/

namespace ChipEight

/-- One thing done to a machine. -/
inductive Operation
  | step
  | run (count : Nat)
  | tick
  | setKey (k : Key) (down : Bool)
  | clearKeys
  | loadProgram (program : List UInt8)
  | loadFont (glyphs : List UInt8)
  | takeFrame
  | clearDirty
  deriving DecidableEq, Repr

/-- What the host hears back from an operation. -/
inductive Reply
  /-- There is nothing to tell. -/
  | done
  /-- Instructions were executed, the last one with this flow. -/
  | flow (flow : Flow)
  /-- Something went wrong. -/
  | fault (fault : Fault)
  /-- The timers were counted down; the sound ended with that or not. -/
  | ticked (expired : Bool)
  /-- The screen, if it changed. -/
  | frame (screen : Option Screen)
  deriving DecidableEq

namespace Reply

/-- The reply to a step or a run. -/
def ofFlow : Except StackFault Flow → Reply
  | .ok f => .flow f
  | .error cause => .fault (.stack cause)

end Reply

namespace Machine

/-- The reply to a load and the machine behind it; a refused load leaves the machine as it was. -/
def loaded (m : Machine) : Except Fault Machine → Reply × Machine
  | .ok next => (.done, next)
  | .error fault => (.fault fault, m)

/-- Do one thing to a machine. -/
def apply (m : Machine) : Operation → Reply × Machine
  | .step =>
    let (outcome, m) := m.step
    (.ofFlow outcome, m)
  | .run count =>
    let (outcome, m) := m.run count
    (.ofFlow outcome, m)
  | .tick =>
    let (expired, m) := m.tick
    (.ticked expired, m)
  | .setKey k down => (.done, m.setKey k down)
  | .clearKeys => (.done, m.clearKeys)
  | .loadProgram program => m.loaded (m.loadProgram program)
  | .loadFont glyphs => m.loaded (m.loadFont glyphs)
  | .takeFrame =>
    let (screen, m) := m.takeFrame
    (.frame screen, m)
  | .clearDirty => (.done, m.clearDirty)

/-- Do the operations of a history in order; the replies come in the same order. -/
def replay (m : Machine) : List Operation → List Reply × Machine
  | [] => ([], m)
  | operation :: rest =>
    let (reply, m) := m.apply operation
    let (replies, m) := m.replay rest
    (reply :: replies, m)

/-- Some history leads to the machine from a new one. -/
def Reachable (m : Machine) : Prop :=
  ∃ config key history, m = ((new config key).replay history).2

/-- What the log says about an operation. -/
def operationLog (m : Machine) : Operation → List Log.Entry
  | .step => m.stepLog
  | .run count => runLog count m
  | .loadProgram program => loadLog program
  | _ => []

end Machine

end ChipEight
