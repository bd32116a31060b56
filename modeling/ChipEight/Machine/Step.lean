import ChipEight.Fault
import ChipEight.Font
import ChipEight.Log
import ChipEight.Instruction.Mnemonic
import ChipEight.Machine

/-!
# Executing instructions

A step fetches the word at the program counter, moves the counter behind it, and
executes the instruction with all operands as they were before. A call on a full stack
and a return on an empty one are faults; the counter stays behind the instruction and
nothing else changes. A run makes steps until one faults.
-/

namespace ChipEight

/-- What an executed instruction means for the host. -/
inductive Flow
  /-- Nothing of note. -/
  | ok
  /-- The program goes on at another place. -/
  | jump
  /-- The screen was drawn on. -/
  | draw
  /-- The machine waits for a key and will execute the same instruction again. -/
  | keyWait
  /-- The word is no instruction and was passed over. -/
  | unsupported (word : UInt16)
  deriving DecidableEq, Repr

namespace Arithmetic

/-- The value for the first register. -/
def result (operation : Arithmetic) (a b : UInt8) : UInt8 :=
  match operation with
  | copy => b
  | or => a ||| b
  | and => a &&& b
  | xor => a ^^^ b
  | add => a + b
  | sub => a - b
  | shiftRight => a >>> 1
  | subFrom => b - a
  | shiftLeft => a <<< 1

/-- The value for the flag, where the operation has one. -/
def flag? (operation : Arithmetic) (a b : UInt8) : Option UInt8 :=
  match operation with
  | copy | or | and | xor => none
  | add => some (if 256 ≤ a.toNat + b.toNat then 1 else 0)
  | sub => some (if b < a then 1 else 0)
  | shiftRight => some (a &&& 1)
  | subFrom => some (if a < b then 1 else 0)
  | shiftLeft => some (a >>> 7)

/-- The registers after an operation on two of them. The flag is set first, so that the result stays
where both are meant for the same register. -/
def apply (operation : Arithmetic) (registers : Registers) (x y : Register) : Registers :=
  let a := registers.get x
  let b := registers.get y
  let flagged :=
    match operation.flag? a b with
    | some flag => registers.put flagRegister flag
    | none => registers
  flagged.put x (operation.result a b)

end Arithmetic

namespace Machine

/-- The machine with the next instruction skipped if the condition holds. -/
def skipIf (m : Machine) (condition : Bool) : Machine :=
  if condition then { m with counter := m.counter + 2 } else m

/-- The machine with a register set. -/
def setRegister (m : Machine) (x : Register) (b : UInt8) : Machine :=
  { m with registers := m.registers.put x b }

/-- The machine with another program counter. -/
def goTo (m : Machine) (place : UInt16) : Machine := { m with counter := place }

/-- The sprite of some rows at the index, placed on the screen by two registers. -/
def spriteOverlay (m : Machine) (x y : Register) (rows : Nat) : Screen :=
  .overlay (m.memory.readBlock m.index.toNat rows) (m.registers.get x).toNat
    (m.registers.get y).toNat

/-- The machine after drawing; the flag tells whether a set cell was hit. -/
def drawOverlay (m : Machine) (overlay : Screen) : Machine :=
  { m with
    screen := m.screen.xor overlay
    dirty := true
    registers := m.registers.put flagRegister (if m.screen.meets overlay then 1 else 0) }

/-- The three decimal digits of a byte. -/
def decimalDigits (b : UInt8) : List UInt8 := [b / 100, b / 10 % 10, b % 10]

/-- The registers up to and with the given one. -/
def registersUpTo (registers : Registers) (x : Register) : List UInt8 :=
  registers.toList.take (x.val + 1)

/-- The registers with those up to and with the given one read from a place in memory. -/
def readRegisters (memory : Memory) (place : Nat) (registers : Registers) (x : Register) :
    Registers :=
  Vector.ofFn fun v : Fin 16 => if v ≤ x then memory.read (place + v.val) else registers.get v

@[simp] theorem length_registersUpTo (registers : Registers) (x : Register) :
    (registersUpTo registers x).length = x.val + 1 := by
  have hx := x.isLt
  rw [registersUpTo, List.length_take, Vector.length_toList]
  omega

/-- The registers up to one come in their order. -/
theorem getElem?_registersUpTo (registers : Registers) {v x : Register} (h : v ≤ x) :
    (registersUpTo registers x)[v.val]? = some (registers.get v) := by
  have hlt : v.val < x.val + 1 := Nat.lt_succ_of_le h
  rw [registersUpTo, List.getElem?_take_of_lt hlt, Vector.getElem?_toList,
    Vector.getElem?_eq_getElem v.isLt]
  rfl

/-- The registers up to one come from memory, and the others stay. -/
theorem get_readRegisters (memory : Memory) (place : Nat) (registers : Registers)
    (x v : Register) :
    (readRegisters memory place registers x).get v =
      if v ≤ x then memory.read (place + v.val) else registers.get v := by
  rw [readRegisters, Vector.get_eq_entry, Vector.getElem_ofFn]

/-- What an instruction does once the counter stands behind it. -/
def execute (m : Machine) : Instruction → Except StackFault Flow × Machine
  | .clear => (.ok .draw, { m with screen := .blank, dirty := true })
  | .ret =>
    match m.calls.pop? with
    | some (place, calls) => (.ok .jump, { m with counter := place, calls := calls })
    | none => (.error .underflow, m)
  | .jump target => (.ok .jump, m.goTo (UInt16.ofNat target))
  | .call target =>
    match m.calls.push? m.counter with
    | some calls => (.ok .jump, { m with counter := UInt16.ofNat target, calls := calls })
    | none => (.error .overflow, m)
  | .skipIfByte x byte => (.ok .ok, m.skipIf (m.registers.get x == byte))
  | .skipUnlessByte x byte => (.ok .ok, m.skipIf (m.registers.get x != byte))
  | .skipIfSame x y => (.ok .ok, m.skipIf (m.registers.get x == m.registers.get y))
  | .setByte x byte => (.ok .ok, m.setRegister x byte)
  | .addByte x byte => (.ok .ok, m.setRegister x (m.registers.get x + byte))
  | .arithmetic operation x y =>
    (.ok .ok, { m with registers := operation.apply m.registers x y })
  | .skipUnlessSame x y => (.ok .ok, m.skipIf (m.registers.get x != m.registers.get y))
  | .setIndex target => (.ok .ok, { m with index := UInt16.ofNat target })
  | .jumpOffset target =>
    (.ok .jump, m.goTo (UInt16.ofNat (target.val + (m.registers.get 0).toNat)))
  | .random x mask =>
    let (word, random) := m.random.next
    (.ok .ok, { m with registers := m.registers.put x (word.toUInt8 &&& mask), random := random })
  | .draw x y rows => (.ok .draw, m.drawOverlay (m.spriteOverlay x y rows))
  | .skipIfDown x => (.ok .ok, m.skipIf (m.keypad.isDownAt (m.registers.get x)))
  | .skipIfUp x => (.ok .ok, m.skipIf (!m.keypad.isDownAt (m.registers.get x)))
  | .readDelay x => (.ok .ok, m.setRegister x m.delayTimer)
  | .awaitKey x =>
    match m.keypad.first? with
    | some k =>
      (.ok .ok, { m with registers := m.registers.put x (UInt8.ofNat k), waiting := false })
    | none => (.ok .keyWait, { m with counter := m.counter - 2, waiting := true })
  | .setDelay x => (.ok .ok, { m with delayTimer := m.registers.get x })
  | .setSound x => (.ok .ok, { m with soundTimer := m.registers.get x })
  | .addIndex x => (.ok .ok, { m with index := m.index + (m.registers.get x).toUInt16 })
  | .glyph x =>
    (.ok .ok,
      { m with index := UInt16.ofNat (Font.start + Font.glyphHeight * (m.registers.get x).toNat) })
  | .storeDecimal x =>
    (.ok .ok,
      { m with memory := m.memory.writeBlock m.index.toNat (decimalDigits (m.registers.get x)) })
  | .storeRegisters x =>
    (.ok .ok,
      { m with memory := m.memory.writeBlock m.index.toNat (registersUpTo m.registers x) })
  | .readRegisters x =>
    (.ok .ok, { m with registers := readRegisters m.memory m.index.toNat m.registers x })
  | .unsupported word => (.ok (.unsupported word), m)

/-- The instruction at the program counter. -/
def nextInstruction (m : Machine) : Instruction := .decode m.fetch

/-- Execute the instruction at the program counter. -/
def step (m : Machine) : Except StackFault Flow × Machine :=
  let instruction := m.nextInstruction
  (m.goTo (m.counter + 2)).execute instruction

/-- Execute instructions until one faults, at most the given number. The flow is that of the last
one. -/
def run (m : Machine) (count : Nat) : Except StackFault Flow × Machine :=
  go (.ok .ok) count m
where
  /-- Go on after a step with the given outcome. -/
  go (last : Except StackFault Flow) : Nat → Machine → Except StackFault Flow × Machine
    | 0, m => (last, m)
    | count + 1, m =>
      match m.step with
      | (.ok flow, m) => go (.ok flow) count m
      | (.error fault, m) => (.error fault, m)

/-- What the log says about the next step: the address and the instruction, and a warning where the
word is no instruction. -/
def stepLog (m : Machine) : List Log.Entry :=
  let instruction := m.nextInstruction
  let place := Hex.word m.counter
  let trace : Log.Entry := ⟨.trace, place ++ ": ".toList ++ instruction.mnemonic.toList⟩
  match instruction with
  | .unsupported word =>
    [trace, ⟨.warn, "unsupported opcode ".toList ++ Hex.word word ++ " at ".toList ++ place⟩]
  | _ => [trace]

/-- What the log says about a run of at most the given number of steps. -/
def runLog : Nat → Machine → List Log.Entry
  | 0, _ => []
  | count + 1, m =>
    m.stepLog ++
      match m.step with
      | (.ok _, next) => runLog count next
      | (.error _, _) => []

end Machine

end ChipEight
