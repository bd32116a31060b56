import ChipEight.Proofs.Machine.Effect

/-!
# The footprint of an instruction

For each part of the state, which instructions may touch it; all others leave it as it
was. `step_effect` collects this for a step: where the program goes on, what the host
hears, and which parts and registers are kept. The footprint depends on the instruction
alone, but for the register of a waiting instruction, which is written only when some key
is down.
-/

namespace ChipEight

/-- The parts of a machine, other than its counter, that only some instructions touch. -/
inductive Part
  | memory
  | calls
  | screen
  | index
  | delayTimer
  | soundTimer
  | random
  | waiting
  deriving DecidableEq, Repr

/-- Two machines agree in a part. -/
def Part.Same (m n : Machine) : Part → Prop
  | .memory => n.memory = m.memory
  | .calls => n.calls = m.calls
  | .screen => n.screen = m.screen
  | .index => n.index = m.index
  | .delayTimer => n.delayTimer = m.delayTimer
  | .soundTimer => n.soundTimer = m.soundTimer
  | .random => n.random = m.random
  | .waiting => n.waiting = m.waiting

namespace Instruction

/-- Whether a part may be touched. -/
def touches : Instruction → Part → Bool
  | .storeDecimal _, .memory | .storeRegisters _, .memory => true
  | .call _, .calls | .ret, .calls => true
  | .clear, .screen | .draw .., .screen => true
  | .setIndex _, .index | .addIndex _, .index | .glyph _, .index => true
  | .setDelay _, .delayTimer => true
  | .setSound _, .soundTimer => true
  | .random .., .random => true
  | .awaitKey _, .waiting => true
  | _, _ => false

/-- Whether a register may be set while the given keys are down. -/
def writes (p : Keypad) (r : Register) : Instruction → Bool
  | .setByte x _ | .addByte x _ | .random x _ | .readDelay x => r == x
  | .arithmetic operation x _ => r == x || (operation.setsFlag && r == flagRegister)
  | .draw .. => r == flagRegister
  | .awaitKey x => r == x && p.first?.isSome
  | .readRegisters x => decide (r ≤ x)
  | _ => false

/-- The instructions that draw are those that touch the screen. -/
theorem draws_eq (i : Instruction) : i.draws = i.touches .screen := by
  cases i <;> rfl

/-- What is not touched stays as it was. -/
theorem same_after {m : Machine} {i : Instruction} {p : Part} (h : i.touches p = false) :
    p.Same m (i.after m) := by
  cases p with
  | memory =>
    change i.memoryAfter m = m.memory
    cases i with
    | storeDecimal x | storeRegisters x => cases h
    | _ => rfl
  | calls =>
    change i.callsAfter m = m.calls
    cases i with
    | call target => cases h
    | ret => cases h
    | _ => rfl
  | screen =>
    change i.screenAfter m = m.screen
    cases i with
    | clear => cases h
    | draw x y rows => cases h
    | _ => rfl
  | index =>
    change i.indexAfter m = m.index
    cases i with
    | setIndex target => cases h
    | addIndex x | glyph x => cases h
    | _ => rfl
  | delayTimer =>
    change i.delayAfter m = m.delayTimer
    cases i with
    | setDelay x => cases h
    | _ => rfl
  | soundTimer =>
    change i.soundAfter m = m.soundTimer
    cases i with
    | setSound x => cases h
    | _ => rfl
  | random =>
    change i.randomAfter m = m.random
    cases i with
    | random x mask => cases h
    | _ => rfl
  | waiting =>
    change i.waitingAfter m = m.waiting
    cases i with
    | awaitKey x => cases h
    | _ => rfl

/-- A register that is not written keeps its value. -/
theorem get_registersAfter {m : Machine} {i : Instruction} {r : Register}
    (h : i.writes m.keypad r = false) : (i.registersAfter m).get r = m.registers.get r := by
  cases i with
  | setByte x byte | addByte x byte | random x byte =>
    exact Vector.get_put_of_ne _ (beq_eq_false_iff_ne.mp h) _
  | readDelay x => exact Vector.get_put_of_ne _ (beq_eq_false_iff_ne.mp h) _
  | draw x y rows => exact Vector.get_put_of_ne _ (beq_eq_false_iff_ne.mp h) _
  | arithmetic operation x y =>
    obtain ⟨hx, hf⟩ := Bool.or_eq_false_iff.mp h
    refine operation.get_apply_of_ne _ _ _ (beq_eq_false_iff_ne.mp hx) ?_
    intro hs
    rw [hs, Bool.true_and] at hf
    exact beq_eq_false_iff_ne.mp hf
  | awaitKey x =>
    cases hk : m.keypad.first? with
    | none => simp only [registersAfter, hk]
    | some k =>
      have hx : (r == x) = false := by
        simpa only [writes, hk, Option.isSome_some, Bool.and_true] using h
      simp only [registersAfter, hk]
      exact Vector.get_put_of_ne _ (beq_eq_false_iff_ne.mp hx) _
  | readRegisters x =>
    have hx : ¬ r ≤ x := of_decide_eq_false h
    rw [registersAfter, Machine.get_readRegisters, if_neg hx]
  | _ => rfl

end Instruction

/-- What executing an instruction makes of a machine: the outcome and the machine behind it,
from the machine before it. -/
structure Effect (i : Instruction) (m : Machine) (o : Except StackFault Flow) (n : Machine) :
    Prop where
  /-- The program goes on where the instruction leads. -/
  counter : n.counter = i.landing m
  /-- A return leads to the address in the topmost occupied place. -/
  returns : i = .ret → 0 < m.calls.depth → m.calls.slots[m.calls.depth - 1]? = some n.counter
  /-- The host hears the flow of the instruction, or that the stack does not allow it. -/
  outcome : o = i.outcome m
  /-- What is not touched stays as it was. -/
  same : ∀ p : Part, i.touches p = false → p.Same m n
  /-- A register that is not written keeps its value. -/
  registers : ∀ r : Register, i.writes m.keypad r = false → n.registers.get r = m.registers.get r
  /-- The screen counts as drawn on from the first drawing instruction on. -/
  dirty : n.dirty = (i.touches .screen || m.dirty)
  /-- Keys are set by the host alone. -/
  keypad : n.keypad = m.keypad
  /-- Rates and seed stay. -/
  config : n.config = m.config

/-- A step executes the word at the counter, and its effect is that of the decoded
instruction. The two bytes are taken from the counter's place in memory and the next one,
around the end of memory. `Instruction.hasWord_iff` tells the words of each instruction. -/
theorem Machine.step_effect (m : Machine) (h : m.calls.Fits) :
    m.fetch.toNat = 256 * m.memory.bytes[m.counter.toNat % 4096].toNat +
        m.memory.bytes[(m.counter.toNat + 1) % 4096].toNat ∧
      Effect (Instruction.decode m.fetch) m m.step.1 m.step.2 := by
  have hs := m.step_eq
  refine ⟨Word.toNat_ofBytes _ _, ?_⟩
  rw [hs]
  refine ⟨rfl, ?_, rfl, fun p hp => Instruction.same_after hp,
    fun r hr => Instruction.get_registersAfter hr, ?_, rfl, rfl⟩
  · intro hi hd
    have hl : m.nextInstruction.landing m = m.calls.top := by
      rw [show m.nextInstruction = .ret from hi]
      exact if_neg (Nat.ne_of_gt hd)
    rw [CallStack.getElem?_top h hd, ← hl]
    rfl
  · exact congrArg (· || m.dirty) m.nextInstruction.draws_eq

/-- A machine with a full stack whose next word, a call, lies around the end of memory. -/
def Machine.atEdge : Machine :=
  { Machine.new .unset (Vector.replicate 8 0) with
    memory := (Memory.zero.write 0xFFF 0x22).write 0x000 0x34
    counter := 0xFFF
    calls := ⟨Vector.replicate 16 0x300, 16⟩ }

theorem Machine.fetch_atEdge : atEdge.fetch = 0x2234 := by
  have hhigh : atEdge.memory.read 0xFFF = 0x22 := by simp [atEdge, Memory.read_write]
  have hlow : atEdge.memory.read 0x1000 = 0x34 := by simp [atEdge, Memory.read_write]
  change Word.ofBytes (atEdge.memory.read 0xFFF) (atEdge.memory.read 0x1000) = 0x2234
  rw [hhigh, hlow]
  decide

/-- The call is refused, and the counter stands behind it. -/
theorem Machine.step_effect_atEdge :
    atEdge.calls.Fits ∧ Effect (.call 0x234) atEdge atEdge.step.1 atEdge.step.2 ∧
      atEdge.step.1 = .error .overflow ∧ atEdge.step.2.counter = 0x1001 := by
  have hfits : atEdge.calls.Fits := by decide
  have heffect := (step_effect atEdge hfits).2
  rw [fetch_atEdge, show Instruction.decode 0x2234 = .call 0x234 by decide] at heffect
  exact ⟨hfits, heffect, heffect.outcome, heffect.counter⟩

end ChipEight
