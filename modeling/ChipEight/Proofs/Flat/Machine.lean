import ChipEight.Machine.Dump
import ChipEight.Machine.Operation
import ChipEight.Proofs.Flat.Checked

/-!
# The flat machine

The same machine once more, on bytes and words alone: cells of the screen are bytes in one
table, keys are bits of a word, the call stack is a table with a number beside it, and
operands are cut out of a word with masks. Every access names its entry by a number that was
computed, one access after the other, and nothing is taken for granted about the numbers: a
number without an entry, a sum without room and a group that no word has are a `Panic`. So
the flat machine can stop where the types of `Machine` leave no room for it. Below come the
operands of a word, keys, drawing, executing, what the host does, and looking at the machine.
-/

namespace ChipEight

open Checked

/-- The cells of a screen, row by row. -/
abbrev Cells := Vector UInt8 2048

/-- The cells of a screen as bytes, each of them zero or one. -/
def Screen.bytes (s : Screen) : Cells :=
  Vector.ofFn fun d : Fin 2048 => if s.pixel (d % 64) (d / 64) then 1 else 0

/-- A machine of bytes and words. -/
structure Flat where
  /-- A byte for each address. -/
  memory : Vector UInt8 4096
  /-- The sixteen registers. -/
  registers : Registers
  /-- Where the next instruction lies. -/
  counter : UInt16
  /-- Where sprites, digits and stored registers lie. -/
  index : UInt16
  /-- The places of the stack, also those that are not occupied. -/
  slots : Vector UInt16 16
  /-- The number of occupied places of the stack. -/
  depth : Nat
  /-- A byte for each cell of the screen, row by row. -/
  cells : Cells
  /-- The screen was drawn on since it was last taken. -/
  dirty : Bool
  /-- The keys that are down, a bit for each. -/
  keys : UInt16
  /-- The machine found no key down when it last asked for one. -/
  waiting : Bool
  /-- The timer that programs can read. -/
  delayTimer : UInt8
  /-- The timer that sounds until it ends. -/
  soundTimer : UInt8
  /-- Where random bytes come from. -/
  random : Keystream
  /-- The rates and the seed. -/
  config : Config
  deriving DecidableEq

/-- What the host hears back, with a screen as its cells. -/
inductive Answer
  | done
  | flow (flow : Flow)
  | fault (fault : Fault)
  | ticked (expired : Bool)
  | frame (cells : Option Cells)
  deriving DecidableEq

/-- The machine on bytes and words. -/
def Machine.flat (m : Machine) : Flat where
  memory := m.memory.bytes
  registers := m.registers
  counter := m.counter
  index := m.index
  slots := m.calls.slots
  depth := m.calls.depth
  cells := m.screen.bytes
  dirty := m.dirty
  keys := UInt16.ofBitVec m.keypad.mask
  waiting := m.waiting
  delayTimer := m.delayTimer
  soundTimer := m.soundTimer
  random := m.random
  config := m.config

/-- The same reply on cells. -/
def Reply.answer : Reply → Answer
  | .done => .done
  | .flow f => .flow f
  | .fault cause => .fault cause
  | .ticked expired => .ticked expired
  | .frame screen => .frame (screen.map Screen.bytes)

namespace Flat

/-- A machine before anything is loaded. -/
def new (config : Config) (key : Vector UInt32 8) : Flat where
  memory := Vector.replicate 4096 0
  registers := Vector.replicate 16 0
  counter := 0x200
  index := 0
  slots := Vector.replicate 16 0
  depth := 0
  cells := Vector.replicate 2048 0
  dirty := false
  keys := 0
  waiting := false
  delayTimer := 0
  soundTimer := 0
  random :=
    match config.seed with
    | some seed => .ofSeed seed
    | none => .ofKey key
  config := config

/-- A byte of memory, at an address of which twelve bits count. -/
def readByte (memory : Vector UInt8 4096) (address : Nat) : Checked UInt8 :=
  entry memory (address &&& 0xFFF)

/-- Memory with another byte at such an address. -/
def writeByte (memory : Vector UInt8 4096) (address : Nat) (b : UInt8) :
    Checked (Vector UInt8 4096) :=
  replace memory (address &&& 0xFFF) b

/-- The word at the program counter. -/
def fetch (s : Flat) : Checked UInt16 := do
  let high ← readByte s.memory s.counter.toNat
  let next ← fit UInt64.size (s.counter.toNat + 1)
  let low ← readByte s.memory next
  return high.toUInt16 <<< 8 ||| low.toUInt16

/-- A number below a bound. -/
def below (bound : Nat) (number : UInt16) : Checked (Fin bound) :=
  if h : number.toNat < bound then .ok ⟨number.toNat, h⟩ else .error .index

/-- The instructions of the group `8___`. -/
def arithmeticInstruction (w : UInt16) (x y nibble : Fin 16) : Instruction :=
  match Arithmetic.ofNibble? nibble with
  | some operation => .arithmetic operation x y
  | none => .unsupported w

/-- The instructions of the group `E___`. -/
def keyInstruction (w : UInt16) (x : Register) (low : UInt8) : Instruction :=
  match low.toNat with
  | 0x9E => .skipIfDown x
  | 0xA1 => .skipIfUp x
  | _ => .unsupported w

/-- The instructions of the group `F___`. -/
def deviceInstruction (w : UInt16) (x : Register) (low : UInt8) : Instruction :=
  match low.toNat with
  | 0x07 => .readDelay x
  | 0x0A => .awaitKey x
  | 0x15 => .setDelay x
  | 0x18 => .setSound x
  | 0x1E => .addIndex x
  | 0x29 => .glyph x
  | 0x33 => .storeDecimal x
  | 0x55 => .storeRegisters x
  | 0x65 => .readRegisters x
  | _ => .unsupported w

/-- The instruction of a word. A selector that is no register stops the machine here, and so does
a group of more than four bits. -/
def decode (w : UInt16) : Checked Instruction := do
  let x ← below 16 ((w &&& 0x0F00) >>> 8)
  let y ← below 16 ((w &&& 0x00F0) >>> 4)
  let nibble ← below 16 (w &&& 0x000F)
  let low := (w &&& 0x00FF).toUInt8
  let target ← below 4096 (w &&& 0x0FFF)
  match ((w &&& 0xF000) >>> 12).toNat with
  | 0x0 => return if w = 0x00E0 then .clear else if w = 0x00EE then .ret else .unsupported w
  | 0x1 => return .jump target
  | 0x2 => return .call target
  | 0x3 => return .skipIfByte x low
  | 0x4 => return .skipUnlessByte x low
  | 0x5 => return .skipIfSame x y
  | 0x6 => return .setByte x low
  | 0x7 => return .addByte x low
  | 0x8 => return arithmeticInstruction w x y nibble
  | 0x9 => return .skipUnlessSame x y
  | 0xA => return .setIndex target
  | 0xB => return .jumpOffset target
  | 0xC => return .random x low
  | 0xD => return .draw x y nibble
  | 0xE => return keyInstruction w x low
  | 0xF => return deviceInstruction w x low
  | _ => throw .unreachable

/-- Whether the key of a value is down; a value that is no key counts as up. -/
def isDown (s : Flat) (value : UInt8) : Checked Bool := do
  if value < 16 then
    let mask ← bit value
    return decide (0 < s.keys &&& mask)
  else return false

/-- The machine with the key of a value put down or up. -/
def setKey (s : Flat) (value : UInt8) (down : Bool) : Checked Flat := do
  if value < 16 then
    let mask ← bit value
    return { s with keys := if down then s.keys ||| mask else s.keys &&& ~~~mask }
  else return s

/-- The least value of a key that is down. -/
def firstKey (s : Flat) : Checked (Option Nat) :=
  if 0 < s.keys then (List.range 16).findM? fun k => s.isDown (UInt8.ofNat k)
  else return none

/-- Draw one cell of a sprite's row if the row has it. The first part tells whether a set cell was
hit so far. -/
def drawCell (row : UInt8) (x y r : Nat) (drawn : Bool × Cells) (c : Nat) :
    Checked (Bool × Cells) := do
  let shift ← difference 7 c
  let shifted ← shiftRight row shift
  if shifted &&& 1 = 0 then return drawn
  else
    let column ← fit UInt64.size (x + c)
    let line ← fit UInt64.size (y + r)
    let above ← fit UInt64.size (line % 32 * 64)
    let place ← fit UInt64.size (column % 64 + above)
    let cell ← entry drawn.2 place
    let cells ← replace drawn.2 place (cell ^^^ 1)
    return (drawn.1 || cell == 1, cells)

/-- Draw one row of a sprite. -/
def drawRow (s : Flat) (x y : Nat) (drawn : Bool × Cells) (r : Nat) :
    Checked (Bool × Cells) := do
  let address ← fit UInt64.size (s.index.toNat + r)
  let row ← readByte s.memory address
  (List.range 8).foldlM (drawCell row x y r) drawn

/-- The machine after drawing the sprite at the index. -/
def draw (s : Flat) (x y : Register) (rows : Nat) : Checked Flat := do
  let drawn ← (List.range rows).foldlM
    (s.drawRow (s.registers.get x).toNat (s.registers.get y).toNat) (false, s.cells)
  return { s with
    cells := drawn.2
    dirty := true
    registers := s.registers.put flagRegister (if drawn.1 then 1 else 0) }

/-- The machine with the next instruction skipped if the condition holds. -/
def skipIf (s : Flat) (condition : Bool) : Flat :=
  if condition then { s with counter := s.counter + 2 } else s

/-- Store a byte so far behind the index. -/
def store (s : Flat) (memory : Vector UInt8 4096) (offset : Nat) (b : UInt8) :
    Checked (Vector UInt8 4096) := do
  let address ← fit UInt64.size (s.index.toNat + offset)
  writeByte memory address b

/-- Store the first registers behind the index. -/
def storeRegisters (s : Flat) (count : Nat) : Checked Flat := do
  let memory ← (List.range count).foldlM
    (fun memory v => do
      let b ← entry s.registers v
      s.store memory v b)
    s.memory
  return { s with memory := memory }

/-- Read the first registers from behind the index. -/
def readRegisters (s : Flat) (count : Nat) : Checked Flat := do
  let registers ← (List.range count).foldlM
    (fun registers v => do
      let address ← fit UInt64.size (s.index.toNat + v)
      let b ← readByte s.memory address
      replace registers v b)
    s.registers
  return { s with registers := registers }

/-- What an instruction does once the counter stands behind it. -/
def execute (s : Flat) : Instruction → Checked (Except StackFault Flow × Flat)
  | .clear => return (.ok .draw, { s with cells := Vector.replicate 2048 0, dirty := true })
  | .ret =>
    match s.depth with
    | 0 => return (.error .underflow, s)
    | depth + 1 => do
      let place ← entry s.slots depth
      return (.ok .jump, { s with counter := place, depth := depth })
  | .jump target => return (.ok .jump, { s with counter := UInt16.ofNat target })
  | .call target =>
    if 16 ≤ s.depth then return (.error .overflow, s)
    else do
      let slots ← replace s.slots s.depth s.counter
      let depth ← fit UInt64.size (s.depth + 1)
      return (.ok .jump,
        { s with counter := UInt16.ofNat target, slots := slots, depth := depth })
  | .skipIfByte x byte => return (.ok .ok, s.skipIf (s.registers.get x == byte))
  | .skipUnlessByte x byte => return (.ok .ok, s.skipIf (s.registers.get x != byte))
  | .skipIfSame x y => return (.ok .ok, s.skipIf (s.registers.get x == s.registers.get y))
  | .setByte x byte => return (.ok .ok, { s with registers := s.registers.put x byte })
  | .addByte x byte =>
    return (.ok .ok, { s with registers := s.registers.put x (s.registers.get x + byte) })
  | .arithmetic operation x y =>
    return (.ok .ok, { s with registers := operation.apply s.registers x y })
  | .skipUnlessSame x y => return (.ok .ok, s.skipIf (s.registers.get x != s.registers.get y))
  | .setIndex target => return (.ok .ok, { s with index := UInt16.ofNat target })
  | .jumpOffset target => do
    let place ← fit UInt16.size (target.val + (s.registers.get 0).toNat)
    return (.ok .jump, { s with counter := UInt16.ofNat place })
  | .random x mask =>
    let (word, random) := s.random.next
    return (.ok .ok,
      { s with registers := s.registers.put x (word.toUInt8 &&& mask), random := random })
  | .draw x y rows => do
    let s ← s.draw x y rows
    return (.ok .draw, s)
  | .skipIfDown x => do
    let down ← s.isDown (s.registers.get x)
    return (.ok .ok, s.skipIf down)
  | .skipIfUp x => do
    let down ← s.isDown (s.registers.get x)
    return (.ok .ok, s.skipIf (!down))
  | .readDelay x => return (.ok .ok, { s with registers := s.registers.put x s.delayTimer })
  | .awaitKey x => do
    match ← s.firstKey with
    | some k =>
      return (.ok .ok, { s with registers := s.registers.put x (UInt8.ofNat k), waiting := false })
    | none => return (.ok .keyWait, { s with counter := s.counter - 2, waiting := true })
  | .setDelay x => return (.ok .ok, { s with delayTimer := s.registers.get x })
  | .setSound x => return (.ok .ok, { s with soundTimer := s.registers.get x })
  | .addIndex x => return (.ok .ok, { s with index := s.index + (s.registers.get x).toUInt16 })
  | .glyph x => do
    let offset ← fit UInt16.size ((s.registers.get x).toNat * 5)
    let place ← fit UInt16.size (0x50 + offset)
    return (.ok .ok, { s with index := UInt16.ofNat place })
  | .storeDecimal x => do
    let value := s.registers.get x
    let memory ← s.store s.memory 0 (value / 100)
    let memory ← s.store memory 1 (value / 10 % 10)
    let memory ← s.store memory 2 (value % 10)
    return (.ok .ok, { s with memory := memory })
  | .storeRegisters x => do
    let s ← s.storeRegisters (x.val + 1)
    return (.ok .ok, s)
  | .readRegisters x => do
    let s ← s.readRegisters (x.val + 1)
    return (.ok .ok, s)
  | .unsupported word => return (.ok (.unsupported word), s)

/-- Execute the instruction at the program counter. -/
def step (s : Flat) : Checked (Except StackFault Flow × Flat) := do
  let word ← s.fetch
  let instruction ← decode word
  { s with counter := s.counter + 2 }.execute instruction

/-- Execute instructions until one faults, at most the given number. -/
def run (s : Flat) (count : Nat) : Checked (Except StackFault Flow × Flat) :=
  go (.ok .ok) count s
where
  /-- Go on after a step with the given outcome. -/
  go (last : Except StackFault Flow) : Nat → Flat → Checked (Except StackFault Flow × Flat)
    | 0, s => return (last, s)
    | count + 1, s => do
      match ← s.step with
      | (.ok flow, s) => go (.ok flow) count s
      | (.error fault, s) => return (.error fault, s)

/-- The machine with bytes copied to a place in memory. -/
def load (s : Flat) (place : Nat) (bytes : List UInt8) : Checked Flat := do
  if 4096 < place + bytes.length then throw .index
  else
    let memory ← bytes.zipIdx.foldlM (fun memory b => replace memory (place + b.2) b.1) s.memory
    return { s with memory := memory }

/-- Do one thing to a machine. -/
def apply (s : Flat) : Operation → Checked (Answer × Flat)
  | .step => do
    let (outcome, s) ← s.step
    return ((Reply.ofFlow outcome).answer, s)
  | .run count => do
    let (outcome, s) ← s.run count
    return ((Reply.ofFlow outcome).answer, s)
  | .tick =>
    return (.ticked (s.soundTimer == 1),
      { s with
        delayTimer := if s.delayTimer = 0 then 0 else s.delayTimer - 1
        soundTimer := if s.soundTimer = 0 then 0 else s.soundTimer - 1 })
  | .setKey k down => do
    let s ← s.setKey (UInt8.ofNat k) down
    return (.done, s)
  | .clearKeys => return (.done, { s with keys := 0 })
  | .loadProgram program => do
    if 4096 - 0x200 < program.length then return (.fault .programTooLarge, s)
    else
      let s ← s.load 0x200 program
      return (.done, s)
  | .loadFont glyphs => do
    if 0x200 < 0x50 + glyphs.length then
      return (.fault (.font (Fault.fontSizeDetail (0x200 - 0x50) glyphs.length)), s)
    else
      let s ← s.load 0x50 glyphs
      return (.done, s)
  | .takeFrame =>
    if s.dirty then return (.frame (some s.cells), { s with dirty := false })
    else return (.frame none, s)
  | .clearDirty => return (.done, { s with dirty := false })

/-- Do the operations of a history in order. -/
def replay (s : Flat) : List Operation → Checked (List Answer × Flat)
  | [] => return ([], s)
  | operation :: rest => do
    let (answer, s) ← s.apply operation
    let (answers, s) ← s.replay rest
    return (answer :: answers, s)

/-- Some history leads to the machine from a new one. -/
def Reachable (s : Flat) : Prop :=
  ∃ config key history answers, (new config key).replay history = .ok (answers, s)

/-- Whether a cell is set; there is none outside the screen. -/
def pixel (s : Flat) (x y : Nat) : Checked Bool := do
  if x < 64 ∧ y < 32 then
    let above ← fit UInt64.size (y * 64)
    let place ← fit UInt64.size (x + above)
    let cell ← entry s.cells place
    return cell != 0
  else return false

/-- Cells row by row, sixty-four in a row, as long as there are any. -/
def rowsOf : List UInt8 → List (List UInt8)
  | [] => []
  | cell :: rest => (cell :: rest).take 64 :: rowsOf (rest.drop 63)
termination_by cells => cells.length
decreasing_by
  rw [List.length_drop, List.length_cons]
  omega

/-- The screen as text: a line for each row, one character for set cells and one for the others. -/
def text (s : Flat) (on off : Char) : List Char :=
  (rowsOf s.cells.toList).flatMap fun row =>
    row.map (fun cell => if cell != 0 then on else off) ++ ['\n']

/-- The line of a dump with the two bytes at a place. -/
def dumpLine (s : Flat) (text : List Char) (place : Nat) : Checked (List Char) := do
  let high ← entry s.memory place
  let next ← fit UInt64.size (place + 1)
  let low ← entry s.memory next
  return text ++ (Hex.padded 4 place ++ [':', ' '] ++ Hex.byte high ++ Hex.byte low ++ ['\n'])

/-- The program memory in lines of two bytes. A sum without room counts as the greatest number. -/
def dumpMemory (s : Flat) (count : Nat) : Checked (List Char) :=
  let stop := min (min (count + 0x200) (UInt64.size - 1)) (4096 - 1)
  (List.range' 0x200 ((stop - 0x200 + 1) / 2) 2).foldlM s.dumpLine []

/-- The keys that are down, in ascending order. -/
def dumpKeys (s : Flat) : Checked (List Char) :=
  if 0 < s.keys then
    (List.range 16).foldlM
      (fun text k => do
        let down ← s.isDown (UInt8.ofNat k)
        return if down then text ++ ['k', Hex.smallDigit k] else text)
      "keys: ".toList
  else return []

end Flat

end ChipEight
