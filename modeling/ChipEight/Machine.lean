import ChipEight.CallStack
import ChipEight.Instruction
import ChipEight.Keypad
import ChipEight.Keystream
import ChipEight.Memory
import ChipEight.Rate
import ChipEight.Screen

/-!
# The machine

The whole state of the machine and what its host may do with it between two
instructions: set keys, count down the timers, and take the screen when it changed.
Addresses are kept with sixteen bits; memory looks at twelve of them.
-/

namespace ChipEight

/-- What a machine is made with: its rates, and a seed for its random words. -/
structure Config where
  /-- Instructions in a second. -/
  clock : Option Rate
  /-- Ticks of the timers in a second. -/
  timer : Option Rate
  /-- The seed of the random words; without one they come from a key that the host supplies. -/
  seed : Option UInt64
  deriving DecidableEq, Repr

namespace Config

/-- Nothing is chosen. -/
def unset : Config := ⟨none, none, none⟩

/-- The nanoseconds from one instruction to the next, for seven hundred in a second unless chosen.
-/
def clockInterval (c : Config) : Nat := (c.clock.getD ⟨700⟩).interval

/-- The nanoseconds from one tick to the next, for sixty in a second unless chosen. -/
def timerInterval (c : Config) : Nat := (c.timer.getD ⟨60⟩).interval

end Config

/-- The sixteen general registers; the last one is also the flag. -/
abbrev Registers := Vector UInt8 16

/-- The register that holds carries, borrows and collisions. -/
def flagRegister : Register := 15

/-- The state of a machine. -/
structure Machine where
  /-- Programs, glyphs and what programs store. -/
  memory : Memory
  /-- The sixteen registers. -/
  registers : Registers
  /-- Where the next instruction lies. -/
  counter : UInt16
  /-- Where sprites, digits and stored registers lie. -/
  index : UInt16
  /-- The addresses that returns go to. -/
  calls : CallStack
  /-- What the program drew. -/
  screen : Screen
  /-- The screen was drawn on since it was last taken. -/
  dirty : Bool
  /-- The keys, as the host set them. -/
  keypad : Keypad
  /-- The machine found no key down when it last asked for one. -/
  waiting : Bool
  /-- The timer that programs can read. -/
  delayTimer : UInt8
  /-- The timer that sounds until it ends. -/
  soundTimer : UInt8
  /-- Where random bytes come from. -/
  random : Keystream
  /-- The rates and the seed. -/
  config : Config
  deriving DecidableEq

namespace Machine

/-- A machine before anything is loaded. The key serves machines without a seed. -/
def new (config : Config) (key : Vector UInt32 8) : Machine where
  memory := .zero
  registers := Vector.replicate 16 0
  counter := UInt16.ofNat Memory.programStart
  index := 0
  calls := .empty
  screen := .blank
  dirty := false
  keypad := .released
  waiting := false
  delayTimer := 0
  soundTimer := 0
  random :=
    match config.seed with
    | some seed => .ofSeed seed
    | none => .ofKey key
  config := config

/-- The word at the program counter. -/
def fetch (m : Machine) : UInt16 := m.memory.readWord m.counter.toNat

/-- The machine with a key put down or up. -/
def setKey (m : Machine) (k : Key) (down : Bool) : Machine :=
  { m with keypad := m.keypad.set k down }

/-- The machine with all keys up. -/
def clearKeys (m : Machine) : Machine := { m with keypad := .released }

/-- The machine with both timers counted down by one, and whether the sound ends with that. A timer
stays at zero once it is there. -/
def tick (m : Machine) : Bool × Machine :=
  (m.soundTimer == 1,
    { m with
      delayTimer := if m.delayTimer = 0 then 0 else m.delayTimer - 1
      soundTimer := if m.soundTimer = 0 then 0 else m.soundTimer - 1 })

/-- The machine with its screen counted as taken. -/
def clearDirty (m : Machine) : Machine := { m with dirty := false }

/-- The screen if it was drawn on since it was last taken, and the machine with its screen counted
as taken. -/
def takeFrame (m : Machine) : Option Screen × Machine :=
  if m.dirty then (some m.screen, m.clearDirty) else (none, m)

end Machine

end ChipEight
