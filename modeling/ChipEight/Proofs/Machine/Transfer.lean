import ChipEight.Proofs.Machine.Effect
import ChipEight.Proofs.Machine.History
import ChipEight.Proofs.Memory.Block

/-!
# Transfers between registers and memory

Registers and decimal digits are written to the places from the index on, one behind the other
and around the end of memory, and no other place is written, whatever lies there: the operands
are those from before the instruction, also where it is written over itself. Stored registers
are read back as long as nobody moves the index or writes to their places.
-/

namespace ChipEight.Machine

/-- The decimal digits of a byte are digits, and the byte is the number that they stand for. -/
theorem decimalDigits_eq (b : UInt8) :
    ∃ h t u : UInt8, decimalDigits b = [h, t, u] ∧ h ≤ 9 ∧ t ≤ 9 ∧ u ≤ 9 ∧
      100 * h.toNat + 10 * t.toNat + u.toNat = b.toNat := by
  have hb := b.toNat_lt
  have hhundreds : (b / 100).toNat = b.toNat / 100 := UInt8.toNat_div _ _
  have htens : (b / 10 % 10).toNat = b.toNat / 10 % 10 := by
    rw [UInt8.toNat_mod, UInt8.toNat_div]
    rfl
  have hones : (b % 10).toNat = b.toNat % 10 := UInt8.toNat_mod _ _
  refine ⟨_, _, _, rfl, ?_, ?_, ?_, ?_⟩
  · rw [UInt8.le_iff_toNat_le, hhundreds, show (9 : UInt8).toNat = 9 from rfl]
    omega
  · rw [UInt8.le_iff_toNat_le, htens, show (9 : UInt8).toNat = 9 from rfl]
    omega
  · rw [UInt8.le_iff_toNat_le, hones, show (9 : UInt8).toNat = 9 from rfl]
    omega
  · omega

/-- A step writes to so many places from the index on, around the end of memory, and does nothing
else but go on behind the instruction. -/
structure WritesAtIndex (m : Machine) (count : Nat) : Prop where
  /-- The step changes memory and goes on behind the instruction. -/
  step : m.step =
    (.ok .ok, { m with counter := m.counter + 2, memory := m.step.2.memory })
  /-- A place that is none of those keeps its byte. -/
  outside : ∀ place, (∀ i < count, place % 4096 ≠ (m.index.toNat + i) % 4096) →
    m.step.2.memory.read place = m.memory.read place

/-- A step that writes a block at the index and goes on leaves the bytes of the block there, one
behind the other. -/
theorem writesAtIndex_of_block {m : Machine} {block : List UInt8}
    (hstep : m.step = (.ok .ok, { m with
      counter := m.counter + 2
      memory := m.memory.writeBlock m.index.toNat block }))
    (hlength : block.length ≤ 4096) :
    m.WritesAtIndex block.length ∧
      ∀ offset b, block[offset]? = some b →
        m.step.2.memory.read (m.index.toNat + offset) = b := by
  have hmemory : m.step.2.memory = m.memory.writeBlock m.index.toNat block := by rw [hstep]
  rw [hmemory]
  refine ⟨⟨?_, fun place houtside => ?_⟩, fun offset b hb => ?_⟩
  · rw [hmemory]
    exact hstep
  · rw [hmemory]
    exact m.memory.read_writeBlock_of_outside hlength houtside
  · have hoffset : offset < block.length := (List.getElem?_eq_some_iff.mp hb).1
    rw [m.memory.read_writeBlock_add _ (by omega) hlength, hb, Option.getD_some]

section Step

variable {m : Machine} {x : Register}

/-- Each stored register lies as far behind the index as its number says. -/
theorem step_of_storeRegisters (h : m.nextInstruction = .storeRegisters x) :
    m.WritesAtIndex (x.val + 1) ∧
      ∀ v ≤ x, m.step.2.memory.read (m.index.toNat + v.val) = m.registers.get v := by
  have hlength := length_registersUpTo m.registers x
  have hstep : m.step = (.ok .ok, { m with
      counter := m.counter + 2
      memory := m.memory.writeBlock m.index.toNat (registersUpTo m.registers x) }) := by
    rw [step_eq, h]
    rfl
  obtain ⟨hwrites, hread⟩ := writesAtIndex_of_block hstep (by omega)
  rw [hlength] at hwrites
  exact ⟨hwrites, fun v hv => hread _ _ (getElem?_registersUpTo m.registers hv)⟩

/-- The three digits lie one behind the other. -/
theorem step_of_storeDecimal (h : m.nextInstruction = .storeDecimal x) :
    m.WritesAtIndex 3 ∧
      ∃ hundreds tens ones : UInt8, hundreds ≤ 9 ∧ tens ≤ 9 ∧ ones ≤ 9 ∧
        100 * hundreds.toNat + 10 * tens.toNat + ones.toNat = (m.registers.get x).toNat ∧
        m.step.2.memory.read m.index.toNat = hundreds ∧
        m.step.2.memory.read (m.index.toNat + 1) = tens ∧
        m.step.2.memory.read (m.index.toNat + 2) = ones := by
  obtain ⟨hundreds, tens, ones, hdigits, hh, ht, ho, hsum⟩ := decimalDigits_eq (m.registers.get x)
  have hstep : m.step = (.ok .ok, { m with
      counter := m.counter + 2
      memory := m.memory.writeBlock m.index.toNat [hundreds, tens, ones] }) := by
    rw [← hdigits, step_eq, h]
    rfl
  obtain ⟨hwrites, hread⟩ := writesAtIndex_of_block hstep (Nat.le_of_ble_eq_true rfl)
  exact ⟨hwrites, hundreds, tens, ones, hh, ht, ho, hsum, hread 0 _ rfl, hread 1 _ rfl,
    hread 2 _ rfl⟩

/-- Reading registers back changes those up to the given one and goes on. -/
theorem step_of_readRegisters (h : m.nextInstruction = .readRegisters x) :
    m.step = (.ok .ok,
      { m with counter := m.counter + 2, registers := m.step.2.registers }) ∧
    ∀ v, m.step.2.registers.get v =
      if v ≤ x then m.memory.read (m.index.toNat + v.val) else m.registers.get v := by
  have hregisters : m.step.2.registers =
      readRegisters m.memory m.index.toNat m.registers x := by
    rw [step_eq, h]
    rfl
  constructor
  · rw [step_eq, h]
    rfl
  · intro v
    rw [hregisters, get_readRegisters]

end Step

/-- Two machines have the same index and the same bytes in so many places from it on. -/
def SameStore (count : Nat) (m n : Machine) : Prop :=
  n.index = m.index ∧
    ∀ i < count, n.memory.read (m.index.toNat + i) = m.memory.read (m.index.toNat + i)

instance (count : Nat) (m n : Machine) : Decidable (SameStore count m n) :=
  inferInstanceAs (Decidable (_ ∧ ∀ i < count, _ = _))

theorem SameStore.trans {count : Nat} {m n o : Machine} (h : SameStore count m n)
    (h' : SameStore count n o) : SameStore count m o := by
  obtain ⟨hindex, hbytes⟩ := h
  obtain ⟨hindex', hbytes'⟩ := h'
  rw [hindex] at hbytes'
  exact ⟨hindex'.trans hindex, fun i hi => (hbytes' i hi).trans (hbytes i hi)⟩

/-- No operation of a history changes the index or one of so many bytes from it on. -/
def Spares (m : Machine) (count : Nat) : List Operation → Prop
  | [] => True
  | operation :: rest =>
    SameStore count m (m.apply operation).2 ∧ (m.apply operation).2.Spares count rest

instance decidableSpares (m : Machine) (count : Nat) :
    (history : List Operation) → Decidable (m.Spares count history)
  | [] => isTrue trivial
  | operation :: rest =>
    have := decidableSpares (m.apply operation).2 count rest
    inferInstanceAs (Decidable (SameStore count m (m.apply operation).2 ∧ _))

theorem Spares.sameStore {count : Nat} {m : Machine} {history : List Operation}
    (h : m.Spares count history) : SameStore count m (m.behind history) := by
  induction history generalizing m with
  | nil => exact ⟨rfl, fun _ _ => rfl⟩
  | cons operation rest ih => exact h.1.trans (ih h.2)

/-- Registers that were stored are read back from a machine that has them in the same places. -/
theorem get_step_of_sameStore {m n : Machine} {x y v : Register}
    (hstore : m.nextInstruction = .storeRegisters x)
    (hsame : SameStore (x.val + 1) m.step.2 n) (hread : n.nextInstruction = .readRegisters y)
    (hy : y ≤ x) (hv : v ≤ y) : n.step.2.registers.get v = m.registers.get v := by
  obtain ⟨hindex, hbytes⟩ := hsame
  obtain ⟨hwrites, hstored⟩ := step_of_storeRegisters hstore
  have hkept : m.step.2.index = m.index := by rw [hwrites.step]
  have hvx : v ≤ x := Nat.le_trans hv hy
  rw [(step_of_readRegisters hread).2, if_pos hv, hindex, hbytes _ (Nat.lt_succ_of_le hvx), hkept,
    hstored v hvx]

/-- Storing registers writes each to its place behind the index, and storing a byte in decimal
writes its three digits there. Both wrap around the end of memory, and both change no other byte
and no other part of the machine. Registers that were stored come back, as many of them as are read,
if nobody moved the index or wrote to their places in between; reading changes nothing but
them. -/
theorem transfers_at_index :
    (∀ (m : Machine) (x : Register), m.nextInstruction = .storeRegisters x →
      m.WritesAtIndex (x.val + 1) ∧
      ∀ v ≤ x, m.step.2.memory.read (m.index.toNat + v.val) = m.registers.get v) ∧
    (∀ (m : Machine) (x : Register), m.nextInstruction = .storeDecimal x →
      m.WritesAtIndex 3 ∧
      ∃ hundreds tens ones : UInt8, hundreds ≤ 9 ∧ tens ≤ 9 ∧ ones ≤ 9 ∧
        100 * hundreds.toNat + 10 * tens.toNat + ones.toNat = (m.registers.get x).toNat ∧
        m.step.2.memory.read m.index.toNat = hundreds ∧
        m.step.2.memory.read (m.index.toNat + 1) = tens ∧
        m.step.2.memory.read (m.index.toNat + 2) = ones) ∧
    ∀ (m : Machine) (x y : Register) (history : List Operation),
      m.nextInstruction = .storeRegisters x → y ≤ x → m.step.2.Spares (x.val + 1) history →
      let n := m.step.2.behind history
      n.nextInstruction = .readRegisters y →
        n.step = (.ok .ok,
          { n with counter := n.counter + 2, registers := n.step.2.registers }) ∧
        (∀ v ≤ y, n.step.2.registers.get v = m.registers.get v) ∧
        ∀ v > y, n.step.2.registers.get v = n.registers.get v := by
  refine ⟨fun m x => step_of_storeRegisters, fun m x => step_of_storeDecimal, ?_⟩
  intro m x y history hstore hy hspares n hread
  obtain ⟨hstep, hget⟩ := step_of_readRegisters hread
  refine ⟨hstep, fun v hv => get_step_of_sameStore hstore hspares.sameStore hread hy hv, ?_⟩
  intro v hv
  have hnot : ¬ v ≤ y := Nat.not_le_of_lt hv
  rw [hget, if_neg hnot]

/-- A machine that stores four registers around the end of memory and over the instruction, sets one
of them, reads three of them back and then writes the first in decimal. -/
def savingAtEdge : Machine :=
  { new .unset (Vector.replicate 8 0) with
    memory := Memory.zero.writeBlock 0 [0xF3, 0x55, 0x60, 0x07, 0xF2, 0x65, 0xF0, 0x33]
    registers := (((Vector.replicate 16 0).put 0 213).put 1 12).put 3 0xAA
    counter := 0x1000
    index := 0xFFE }

/-- The second of the two bytes of the instruction is overwritten by the last register. The first
register is read back, and its digits take the places from the index on. -/
theorem transfers_at_index_saving :
    savingAtEdge.nextInstruction = .storeRegisters 3 ∧
      savingAtEdge.step.2.memory.read 0x001 = 0xAA ∧
      savingAtEdge.step.2.Spares 4 [.step, .tick] ∧
      (savingAtEdge.step.2.behind [.step, .tick]).registers.get 0 = 7 ∧
      (savingAtEdge.step.2.behind [.step, .tick]).nextInstruction = .readRegisters 2 ∧
      (savingAtEdge.step.2.behind [.step, .tick]).step.2.registers.get 0 = 213 ∧
      (savingAtEdge.behind [.step, .step, .step]).nextInstruction = .storeDecimal 0 ∧
      (savingAtEdge.behind [.step, .step, .step]).WritesAtIndex 3 := by
  have hstore : savingAtEdge.nextInstruction = .storeRegisters 3 := by decide +kernel
  have hspares : savingAtEdge.step.2.Spares 4 [.step, .tick] := by decide +kernel
  have hset : (savingAtEdge.step.2.behind [.step, .tick]).registers.get 0 = 7 := by
    decide +kernel
  have hread : (savingAtEdge.step.2.behind [.step, .tick]).nextInstruction =
      .readRegisters 2 := by decide +kernel
  have hdecimal : (savingAtEdge.behind [.step, .step, .step]).nextInstruction =
      .storeDecimal 0 := by decide +kernel
  obtain ⟨hstored, hdigits, hback⟩ := transfers_at_index
  obtain ⟨-, hfirst, -⟩ := hback savingAtEdge 3 2 [.step, .tick] hstore (by decide) hspares hread
  exact ⟨hstore, (hstored _ 3 hstore).2 3 (Nat.le_refl _), hspares, hset, hread,
    hfirst 0 (by decide), hdecimal, (hdigits _ 0 hdecimal).1⟩

end ChipEight.Machine
