import ChipEight.Proofs.Machine.Effect

/-!
# Arithmetic on registers

What an arithmetic instruction leaves in its first register and in the flag, as numbers. Both are
made from the operands as they were before the instruction, whichever registers they are in; where
the first register is the flag itself, the result stays there.
-/

namespace ChipEight

namespace Arithmetic

/-- The number that an operation on two bytes results in. -/
def value (a b : Nat) : Arithmetic → Nat
  | copy => b
  | or => a ||| b
  | and => a &&& b
  | xor => a ^^^ b
  | add => (a + b) % 256
  | sub => (a + 256 - b) % 256
  | shiftRight => a / 2
  | subFrom => (b + 256 - a) % 256
  | shiftLeft => 2 * a % 256

/-- What the flag tells of an operation on two bytes with the given result. A carry and a bit that
was shifted out make up what the result lacks; a difference is flagged where it is taken from the
greater number; the other operations leave the flag as it was. -/
def FlagTells (a b result old flag : Nat) : Arithmetic → Prop
  | copy | or | and | xor => flag = old
  | add => a + b = result + 256 * flag
  | sub => flag = if b < a then 1 else 0
  | shiftRight => a = 2 * result + flag
  | subFrom => flag = if a < b then 1 else 0
  | shiftLeft => 2 * a = result + 256 * flag

theorem toNat_result (operation : Arithmetic) (a b : UInt8) :
    (operation.result a b).toNat = operation.value a.toNat b.toNat := by
  have ha := a.toNat_lt
  have hb := b.toNat_lt
  cases operation with
  | copy => rfl
  | or => exact UInt8.toNat_or a b
  | and => exact UInt8.toNat_and a b
  | xor => exact UInt8.toNat_xor a b
  | add => exact UInt8.toNat_add a b
  | sub =>
    rw [result, value, UInt8.toNat_sub]
    congr 1
    omega
  | shiftRight =>
    rw [result, value, UInt8.toNat_shiftRight]
    rfl
  | subFrom =>
    rw [result, value, UInt8.toNat_sub]
    congr 1
    omega
  | shiftLeft =>
    rw [result, value, UInt8.toNat_shiftLeft, Nat.shiftLeft_eq, Nat.mul_comm]
    rfl

/-- The flag, or the old one where the operation has none, tells of the operation. -/
theorem flagTells_flag? (operation : Arithmetic) (a b old : UInt8) :
    operation.FlagTells a.toNat b.toNat (operation.result a b).toNat old.toNat
      ((operation.flag? a b).getD old).toNat := by
  have ha := a.toNat_lt
  have hb := b.toNat_lt
  rw [toNat_result]
  cases operation with
  | copy | or | and | xor => rfl
  | add =>
    simp only [FlagTells, value, flag?, Option.getD_some]
    split
    · simp only [UInt8.reduceToNat]
      omega
    · simp only [UInt8.reduceToNat]
      omega
  | sub =>
    simp only [FlagTells, flag?, Option.getD_some, UInt8.lt_iff_toNat_lt]
    split <;> rfl
  | shiftRight =>
    have hflag : (a &&& 1).toNat = a.toNat % 2 := by
      rw [UInt8.toNat_and]
      exact Nat.and_one_is_mod _
    simp only [FlagTells, value, flag?, Option.getD_some, hflag]
    omega
  | subFrom =>
    simp only [FlagTells, flag?, Option.getD_some, UInt8.lt_iff_toNat_lt]
    split <;> rfl
  | shiftLeft =>
    have hflag : (a >>> 7).toNat = a.toNat / 128 := by
      rw [UInt8.toNat_shiftRight]
      exact Nat.shiftRight_eq_div_pow _ _
    simp only [FlagTells, value, flag?, Option.getD_some, hflag]
    omega

variable (operation : Arithmetic) (registers : Registers) (x y : Register)

theorem get_apply_self :
    (operation.apply registers x y).get x =
      operation.result (registers.get x) (registers.get y) :=
  Vector.get_put_self _ _ _

/-- The result is written behind the flag, to another register. -/
theorem get_apply_flagRegister (hx : x ≠ flagRegister) :
    (operation.apply registers x y).get flagRegister =
      (operation.flag? (registers.get x) (registers.get y)).getD
        (registers.get flagRegister) := by
  rw [apply, Vector.get_put_of_ne _ hx.symm]
  cases operation.flag? (registers.get x) (registers.get y) with
  | none => rfl
  | some flag => exact Vector.get_put_self _ _ _

end Arithmetic

/-- A word of the arithmetic group with the nibble of an operation stands for that operation. -/
theorem Instruction.decode_of_arithmetic {w : UInt16} {operation : Arithmetic} {x y : Register}
    (h : w.toNat = 0x8000 + 0x100 * x.val + 0x10 * y.val + operation.nibble) :
    decode w = .arithmetic operation x y :=
  decode_of_hasWord (i := .arithmetic operation x y) h

namespace Machine

/-- An arithmetic instruction leaves its result in the first register and what it flags in the flag
register, both from the operands before it; where the two registers are one, the result stays. Every
other register keeps its value, and the machine goes on behind the instruction and is otherwise as
it was. -/
theorem arithmetic_of_operands {m : Machine} {operation : Arithmetic} {x y : Register}
    (h : m.fetch.toNat = 0x8000 + 0x100 * x.val + 0x10 * y.val + operation.nibble) :
    let n := m.step.2
    let a := (m.registers.get x).toNat
    let b := (m.registers.get y).toNat
    m.step = (.ok .ok, { m with counter := m.counter + 2, registers := n.registers }) ∧
    (n.registers.get x).toNat = operation.value a b ∧
    (x ≠ flagRegister →
      operation.FlagTells a b (n.registers.get x).toNat
        (m.registers.get flagRegister).toNat (n.registers.get flagRegister).toNat) ∧
    ∀ r : Register, r ≠ x → r ≠ flagRegister → n.registers.get r = m.registers.get r := by
  intro n a b
  have hnext : m.nextInstruction = .arithmetic operation x y :=
    Instruction.decode_of_arithmetic h
  have hregisters : n.registers = operation.apply m.registers x y := by
    change m.step.2.registers = _
    rw [step_eq, hnext]
    rfl
  refine ⟨?_, ?_, ?_, ?_⟩
  · rw [hregisters, step_eq, hnext]
    rfl
  · rw [hregisters, operation.get_apply_self, operation.toNat_result]
  · intro hx
    rw [hregisters, operation.get_apply_self, operation.get_apply_flagRegister _ _ _ hx]
    exact operation.flagTells_flag? _ _ _
  · intro r hx hf
    rw [hregisters]
    exact operation.get_apply_of_ne _ _ _ hx fun _ => hf

/-- A machine that takes the flag register from another one, and then adds that one to the flag
register. -/
def flagOperand : Machine :=
  { new .unset (Vector.replicate 8 0) with
    memory := Memory.zero.writeBlock 0x200 [0x83, 0xF5, 0x8F, 0x34]
    registers := ((Vector.replicate 16 0).put 3 5).put flagRegister 9 }

/-- The difference is taken before the flag is written, and the sum stays in the flag register. -/
theorem arithmetic_of_operands_flag :
    flagOperand.fetch = 0x83F5 ∧ flagOperand.step.2.fetch = 0x8F34 ∧
      (flagOperand.step.2.registers.get 3).toNat = 252 ∧
      (flagOperand.step.2.registers.get flagRegister).toNat = 0 ∧
      (flagOperand.step.2.step.2.registers.get flagRegister).toNat = 252 := by
  have hfirst : flagOperand.fetch = 0x83F5 := by decide +kernel
  have hsecond : flagOperand.step.2.fetch = 0x8F34 := by decide +kernel
  have hsub : flagOperand.fetch.toNat =
      0x8000 + 0x100 * (3 : Register).val + 0x10 * flagRegister.val + Arithmetic.sub.nibble := by
    rw [hfirst]
    rfl
  have hadd : flagOperand.step.2.fetch.toNat =
      0x8000 + 0x100 * flagRegister.val + 0x10 * (3 : Register).val + Arithmetic.add.nibble := by
    rw [hsecond]
    rfl
  obtain ⟨-, hresult, hflag, -⟩ := arithmetic_of_operands hsub
  obtain ⟨-, hsum, -⟩ := arithmetic_of_operands hadd
  have hdifference : (flagOperand.step.2.registers.get 3).toNat = 252 := hresult
  have hclear : (flagOperand.step.2.registers.get flagRegister).toNat = 0 := hflag (by decide)
  refine ⟨hfirst, hsecond, hdifference, hclear, ?_⟩
  rw [hsum, hdifference, hclear]
  rfl

end Machine

end ChipEight
