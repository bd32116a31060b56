import ChipEight.Machine.Step
import ChipEight.Proofs.Instruction.Pattern

/-!
# What an instruction changes

`Machine.execute` says instruction by instruction what is done. Here the same behaviour is
laid out component by component: one table for each part of the state, in terms of the
state before the step. `step_eq` proves that a step is the simultaneous update of all
parts by their tables, so a property of one part is proved from its own table alone. The
tables name few instructions each, and what they do not name stays as it was.
-/

namespace ChipEight

namespace CallStack

/-- The most recent return address, where some place is occupied. -/
def top (s : CallStack) : UInt16 := s.slots[s.depth - 1]?.getD 0

/-- Popping gives the most recent return address and leaves every place as it was. -/
theorem pop?_eq (s : CallStack) :
    s.pop? = if s.depth = 0 then none else some (s.top, { s with depth := s.depth - 1 }) := by
  obtain ⟨slots, depth⟩ := s
  cases depth <;> rfl

/-- Where the occupied places are within the stack, the most recent address is in one of them. -/
theorem getElem?_top {s : CallStack} (h : s.Fits) (hd : 0 < s.depth) :
    s.slots[s.depth - 1]? = some s.top := by
  have hlt : s.depth - 1 < 16 := by
    unfold Fits at h
    omega
  simp only [top, Vector.getElem?_eq_getElem hlt, Option.getD_some]

/-- Nothing is taken from an empty stack. -/
theorem drop_of_empty (s : CallStack) (h : s.depth = 0) :
    ({ s with depth := s.depth - 1 } : CallStack) = s := by
  obtain ⟨slots, depth⟩ := s
  have hd : depth = 0 := h
  simp only [hd]

end CallStack

/-- No key is found exactly when every key is up. -/
theorem Keypad.first?_eq_none_iff (p : Keypad) :
    p.first? = none ↔ ∀ k, p.isDown k = false := by
  simp only [first?, Key.all, List.find?_eq_none, List.mem_finRange, Bool.not_eq_true, true_imp_iff]

/-- Whether an operation has a flag. -/
def Arithmetic.setsFlag : Arithmetic → Bool
  | copy | or | and | xor => false
  | add | sub | shiftRight | subFrom | shiftLeft => true

/-- An operation touches its first register and, if it has a flag, the flag register. -/
theorem Arithmetic.get_apply_of_ne (operation : Arithmetic) (registers : Registers)
    (x y : Register) {r : Register} (hx : r ≠ x)
    (hf : operation.setsFlag = true → r ≠ flagRegister) :
    (operation.apply registers x y).get r = registers.get r := by
  unfold Arithmetic.apply
  simp only [Vector.get_put_of_ne _ hx]
  cases operation with
  | copy | or | and | xor => rfl
  | add | sub | shiftRight | subFrom | shiftLeft => exact Vector.get_put_of_ne _ (hf rfl) _

namespace Instruction

/-! ### Tables -/

section Tables

variable (m : Machine)

/-- Whether a skip finds its condition fulfilled. -/
def skips : Instruction → Bool
  | .skipIfByte x byte => m.registers.get x == byte
  | .skipUnlessByte x byte => m.registers.get x != byte
  | .skipIfSame x y => m.registers.get x == m.registers.get y
  | .skipUnlessSame x y => m.registers.get x != m.registers.get y
  | .skipIfDown x => m.keypad.isDownAt (m.registers.get x)
  | .skipIfUp x => !m.keypad.isDownAt (m.registers.get x)
  | _ => false

/-- Where the program goes on. -/
def landing : Instruction → UInt16
  | .jump target => UInt16.ofNat target
  | .jumpOffset target => UInt16.ofNat (target.val + (m.registers.get 0).toNat)
  | .call target => if m.calls.depth < 16 then UInt16.ofNat target else m.counter + 2
  | .ret => if m.calls.depth = 0 then m.counter + 2 else m.calls.top
  | .awaitKey _ => if ∀ k, m.keypad.isDown k = false then m.counter else m.counter + 2
  | i => if i.skips m then m.counter + 4 else m.counter + 2

/-- What the host hears. -/
def outcome : Instruction → Except StackFault Flow
  | .jump _ | .jumpOffset _ => .ok .jump
  | .call _ => if m.calls.depth < 16 then .ok .jump else .error .overflow
  | .ret => if m.calls.depth = 0 then .error .underflow else .ok .jump
  | .clear | .draw .. => .ok .draw
  | .awaitKey _ => if ∀ k, m.keypad.isDown k = false then .ok .keyWait else .ok .ok
  | .unsupported word => .ok (.unsupported word)
  | _ => .ok .ok

/-- The memory afterwards. -/
def memoryAfter : Instruction → Memory
  | .storeDecimal x =>
    m.memory.writeBlock m.index.toNat (Machine.decimalDigits (m.registers.get x))
  | .storeRegisters x =>
    m.memory.writeBlock m.index.toNat (Machine.registersUpTo m.registers x)
  | _ => m.memory

/-- The registers afterwards. -/
def registersAfter : Instruction → Registers
  | .setByte x byte => m.registers.put x byte
  | .addByte x byte => m.registers.put x (m.registers.get x + byte)
  | .arithmetic operation x y => operation.apply m.registers x y
  | .random x mask => m.registers.put x (m.random.next.1.toUInt8 &&& mask)
  | .draw x y rows =>
    m.registers.put flagRegister (if m.screen.meets (m.spriteOverlay x y rows) then 1 else 0)
  | .readDelay x => m.registers.put x m.delayTimer
  | .awaitKey x =>
    match m.keypad.first? with
    | some k => m.registers.put x (UInt8.ofNat k)
    | none => m.registers
  | .readRegisters x => Machine.readRegisters m.memory m.index.toNat m.registers x
  | _ => m.registers

/-- The index afterwards. -/
def indexAfter : Instruction → UInt16
  | .setIndex target => UInt16.ofNat target
  | .addIndex x => m.index + (m.registers.get x).toUInt16
  | .glyph x => UInt16.ofNat (Font.start + Font.glyphHeight * (m.registers.get x).toNat)
  | _ => m.index

/-- The call stack afterwards. -/
def callsAfter : Instruction → CallStack
  | .call _ => (m.calls.push? (m.counter + 2)).getD m.calls
  | .ret => { m.calls with depth := m.calls.depth - 1 }
  | _ => m.calls

/-- The screen afterwards. -/
def screenAfter : Instruction → Screen
  | .clear => .blank
  | .draw x y rows => m.screen.xor (m.spriteOverlay x y rows)
  | _ => m.screen

/-- Whether the machine waits for a key afterwards. -/
def waitingAfter : Instruction → Bool
  | .awaitKey _ => decide (∀ k, m.keypad.isDown k = false)
  | _ => m.waiting

/-- The delay timer afterwards. -/
def delayAfter : Instruction → UInt8
  | .setDelay x => m.registers.get x
  | _ => m.delayTimer

/-- The sound timer afterwards. -/
def soundAfter : Instruction → UInt8
  | .setSound x => m.registers.get x
  | _ => m.soundTimer

/-- The generator afterwards. -/
def randomAfter : Instruction → Keystream
  | .random .. => m.random.next.2
  | _ => m.random

end Tables

/-- Whether the screen is drawn on. -/
def draws : Instruction → Bool
  | .clear | .draw .. => true
  | _ => false

/-- The machine with every part as its table says. -/
def after (m : Machine) (i : Instruction) : Machine where
  memory := i.memoryAfter m
  registers := i.registersAfter m
  counter := i.landing m
  index := i.indexAfter m
  calls := i.callsAfter m
  screen := i.screenAfter m
  dirty := i.draws || m.dirty
  keypad := m.keypad
  waiting := i.waitingAfter m
  delayTimer := i.delayAfter m
  soundTimer := i.soundAfter m
  random := i.randomAfter m
  config := m.config

end Instruction

namespace Instruction

/-- A call finds a free place and takes it for the address behind it. -/
theorem callsAfter_call_of_lt (target : Address) {m : Machine} (h : m.calls.depth < 16) :
    (Instruction.call target).callsAfter m =
      ⟨m.calls.slots.set m.calls.depth (m.counter + 2), m.calls.depth + 1⟩ :=
  congrArg (Option.getD · m.calls) (dif_pos h)

/-- A call on a full stack leaves it alone. -/
theorem callsAfter_call_of_full (target : Address) {m : Machine} (h : ¬ m.calls.depth < 16) :
    (Instruction.call target).callsAfter m = m.calls :=
  congrArg (Option.getD · m.calls) (dif_neg h)

end Instruction

namespace Machine

/-- Moving behind the instruction and then skipping is moving by two or by four. -/
private theorem skipIf_goTo (m : Machine) (condition : Bool) :
    (m.goTo (m.counter + 2)).skipIf condition =
      m.goTo (if condition then m.counter + 4 else m.counter + 2) := by
  cases condition with
  | false => rfl
  | true =>
    have h : m.counter + 2 + 2 = m.counter + 4 := UInt16.add_assoc _ _ _
    simp only [skipIf, goTo, h, ite_true]

private theorem execute_ret (m : Machine) :
    (m.goTo (m.counter + 2)).execute .ret =
      (Instruction.ret.outcome m, Instruction.ret.after m) := by
  have hpop := m.calls.pop?_eq
  by_cases hd : m.calls.depth = 0
  · rw [if_pos hd] at hpop
    have ho : Instruction.ret.outcome m = .error .underflow := if_pos hd
    have hl : Instruction.ret.landing m = m.counter + 2 := if_pos hd
    have hc : Instruction.ret.callsAfter m = m.calls := m.calls.drop_of_empty hd
    simp only [execute, goTo, hpop, ho, hl, hc, Instruction.after]
    rfl
  · rw [if_neg hd] at hpop
    have ho : Instruction.ret.outcome m = .ok .jump := if_neg hd
    have hl : Instruction.ret.landing m = m.calls.top := if_neg hd
    simp only [execute, goTo, hpop, ho, hl, Instruction.after]
    rfl

private theorem execute_call (m : Machine) (target : Address) :
    (m.goTo (m.counter + 2)).execute (.call target) =
      ((Instruction.call target).outcome m, (Instruction.call target).after m) := by
  by_cases hd : m.calls.depth < 16
  · have hpush : m.calls.push? (m.counter + 2) =
        some ⟨m.calls.slots.set m.calls.depth (m.counter + 2), m.calls.depth + 1⟩ := dif_pos hd
    have ho : (Instruction.call target).outcome m = .ok .jump := if_pos hd
    have hl : (Instruction.call target).landing m = UInt16.ofNat target := if_pos hd
    simp only [execute, goTo, hpush, ho, hl, Instruction.callsAfter_call_of_lt target hd,
      Instruction.after]
    rfl
  · have hpush : m.calls.push? (m.counter + 2) = none := dif_neg hd
    have ho : (Instruction.call target).outcome m = .error .overflow := if_neg hd
    have hl : (Instruction.call target).landing m = m.counter + 2 := if_neg hd
    simp only [execute, goTo, hpush, ho, hl, Instruction.callsAfter_call_of_full target hd,
      Instruction.after]
    rfl

private theorem execute_awaitKey (m : Machine) (x : Register) :
    (m.goTo (m.counter + 2)).execute (.awaitKey x) =
      ((Instruction.awaitKey x).outcome m, (Instruction.awaitKey x).after m) := by
  cases hk : m.keypad.first? with
  | none =>
    have hup := m.keypad.first?_eq_none_iff.mp hk
    have hback : m.counter + 2 - 2 = m.counter := UInt16.add_sub_cancel _ _
    have ho : (Instruction.awaitKey x).outcome m = .ok .keyWait := if_pos hup
    have hl : (Instruction.awaitKey x).landing m = m.counter := if_pos hup
    have hw : (Instruction.awaitKey x).waitingAfter m = true := decide_eq_true hup
    have hr : (Instruction.awaitKey x).registersAfter m = m.registers := by
      simp only [Instruction.registersAfter, hk]
    simp only [execute, goTo, hk, hback, ho, hl, hw, hr, Instruction.after]
    rfl
  | some k =>
    have hup : ¬ ∀ k, m.keypad.isDown k = false := by
      rw [← m.keypad.first?_eq_none_iff, hk]
      exact Option.some_ne_none k
    have ho : (Instruction.awaitKey x).outcome m = .ok .ok := if_neg hup
    have hl : (Instruction.awaitKey x).landing m = m.counter + 2 := if_neg hup
    have hw : (Instruction.awaitKey x).waitingAfter m = false := decide_eq_false hup
    have hr : (Instruction.awaitKey x).registersAfter m =
        m.registers.put x (UInt8.ofNat k) := by
      simp only [Instruction.registersAfter, hk]
    simp only [execute, goTo, hk, ho, hl, hw, hr, Instruction.after]
    rfl

/-- Executing an instruction behind the counter is updating every part by its table. -/
theorem execute_goTo (m : Machine) (i : Instruction) :
    (m.goTo (m.counter + 2)).execute i = (i.outcome m, i.after m) := by
  cases i with
  | skipIfByte x byte => exact congrArg (Prod.mk _) (skipIf_goTo m _)
  | skipUnlessByte x byte => exact congrArg (Prod.mk _) (skipIf_goTo m _)
  | skipIfSame x y => exact congrArg (Prod.mk _) (skipIf_goTo m _)
  | skipUnlessSame x y => exact congrArg (Prod.mk _) (skipIf_goTo m _)
  | skipIfDown x => exact congrArg (Prod.mk _) (skipIf_goTo m _)
  | skipIfUp x => exact congrArg (Prod.mk _) (skipIf_goTo m _)
  | ret => exact execute_ret m
  | call target => exact execute_call m target
  | awaitKey x => exact execute_awaitKey m x
  | _ => rfl

/-- A step is the simultaneous update of all parts by the tables of the next instruction. -/
theorem step_eq (m : Machine) :
    m.step = (m.nextInstruction.outcome m, m.nextInstruction.after m) :=
  m.execute_goTo m.nextInstruction

/-- The same in front of a word of the table of instructions. -/
theorem step_of_hasWord {m : Machine} {i : Instruction} (h : i.HasWord m.fetch) :
    m.step = (i.outcome m, i.after m) := by
  rw [step_eq, nextInstruction, Instruction.decode_of_hasWord h]

end Machine

end ChipEight
