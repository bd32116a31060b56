import ChipEight.Proofs.Flat.Machine
import Mathlib.Tactic.IntervalCases

/-!
# Memory and words of the flat machine

Masking an address to twelve bits keeps it below the size of memory, so memory is read and
written without a panic, and the loops over registers and loaded bytes go as far as their
tables. Masks and shifts cut the same operands out of a word as divisions do.
-/

namespace ChipEight

open Checked

theorem and_twelve_bits (address : Nat) : address &&& 0xFFF = address % 4096 :=
  Nat.and_two_pow_sub_one_eq_mod address 12

namespace Flat

theorem readByte_eq (memory : Memory) (address : Nat) :
    readByte memory.bytes address = .ok (memory.read address) := by
  have hlt : address % 4096 < 4096 := Nat.mod_lt _ (by decide)
  rw [readByte, and_twelve_bits, entry_of_lt _ hlt]
  rfl

theorem writeByte_eq (memory : Memory) (address : Nat) (b : UInt8) :
    writeByte memory.bytes address b = .ok (memory.write address b).bytes := by
  have hlt : address % 4096 < 4096 := Nat.mod_lt _ (by decide)
  rw [writeByte, and_twelve_bits, replace_of_lt _ hlt]
  rfl

/-- A byte is stored behind the index as far as registers go. -/
theorem store_eq (m : Machine) (memory : Memory) {offset : Nat} (h : offset < 16) (b : UInt8) :
    m.flat.store memory.bytes offset b =
      .ok (memory.write (m.index.toNat + offset) b).bytes := by
  have hindex : m.flat.index.toNat < 65536 := m.index.toNat_lt
  rw [store]
  exact bind_of_ok (fit64_of_lt (by omega)) (writeByte_eq memory _ b)

end Flat

namespace Memory

/-- Writing a block is writing its bytes one after the other. -/
theorem writeBlock_eq_foldl (memory : Memory) (place offset : Nat) (bytes : List UInt8) :
    memory.writeBlock (place + offset) bytes =
      (bytes.zipIdx offset).foldl (fun memory b => memory.write (place + b.2) b.1) memory := by
  induction bytes generalizing memory offset with
  | nil => rfl
  | cons b rest ih => exact ih (memory.write (place + offset) b) (offset + 1)

end Memory

namespace Flat

/-- Bytes that fit behind a place are copied there. -/
theorem load_eq (m : Machine) {place : Nat} {bytes : List UInt8}
    (h : place + bytes.length ≤ 4096) :
    m.flat.load place bytes =
      .ok { m with memory := m.memory.writeBlock place bytes }.flat := by
  have hcopy : bytes.zipIdx.foldlM (fun memory b => replace memory (place + b.2) b.1)
      m.memory.bytes = .ok (m.memory.writeBlock place bytes).bytes := by
    rw [← Nat.add_zero place, m.memory.writeBlock_eq_foldl place 0]
    refine foldlM_of_ok Memory.bytes _ (fun memory b hb => ?_) m.memory
    have hlt : b.2 < bytes.length := List.snd_lt_of_mem_zipIdx hb
    have hmod : (place + b.2) % 4096 = place + b.2 := Nat.mod_eq_of_lt (by omega)
    rw [Nat.add_zero, replace_of_lt _ (by omega)]
    simp only [Memory.write, hmod]
  rw [load, if_neg (by omega)]
  exact bind_of_ok hcopy rfl

/-- The registers up to one, each with its number. -/
theorem zipIdx_registersUpTo (registers : Registers) (x : Register) :
    (Machine.registersUpTo registers x).zipIdx =
      (List.range (x.val + 1)).map fun v => (registers[v]?.getD 0, v) := by
  have hx := x.isLt
  refine List.ext_getElem? fun v => ?_
  rw [List.getElem?_zipIdx, List.getElem?_map]
  by_cases hv : v < x.val + 1
  · have hlt : v < 16 := by omega
    have hle : (⟨v, hlt⟩ : Register) ≤ x := Nat.le_of_lt_succ hv
    rw [Machine.getElem?_registersUpTo registers hle, List.getElem?_range hv, Option.map_some,
      Option.map_some, Nat.zero_add, Vector.getElem?_eq_getElem hlt]
    rfl
  · have hlength := Machine.length_registersUpTo registers x
    rw [List.getElem?_eq_none (by omega), List.getElem?_eq_none (by rw [List.length_range]; omega)]
    rfl

/-- The registers up to one are stored. -/
theorem storeRegisters_eq (m : Machine) (x : Register) :
    m.flat.storeRegisters (x.val + 1) =
      .ok { m with
        memory := m.memory.writeBlock m.index.toNat
          (Machine.registersUpTo m.registers x) }.flat := by
  have hx := x.isLt
  have hloop : (List.range (x.val + 1)).foldlM
      (fun memory v => do
        let b ← entry m.registers v
        m.flat.store memory v b)
      m.memory.bytes =
        .ok (m.memory.writeBlock m.index.toNat (Machine.registersUpTo m.registers x)).bytes := by
    rw [← Nat.add_zero m.index.toNat, m.memory.writeBlock_eq_foldl m.index.toNat 0,
      zipIdx_registersUpTo, List.foldl_map]
    refine foldlM_of_ok Memory.bytes _ (fun memory v hv => ?_) m.memory
    have hlt : v < 16 := by
      have hv := List.mem_range.mp hv
      omega
    rw [Vector.getElem?_eq_getElem hlt]
    exact bind_of_ok (entry_of_lt _ hlt) (store_eq m memory hlt _)
  rw [storeRegisters]
  exact bind_of_ok hloop rfl

/-- The first registers, one after the other read from memory. -/
theorem getElem_foldl_read (memory : Memory) (place : Nat) (registers : Registers) (count : Nat)
    {v : Nat} (hv : v < 16) :
    ((List.range count).foldl
        (fun registers v => registers.setIfInBounds v (memory.read (place + v))) registers)[v] =
      if v < count then memory.read (place + v) else registers[v] := by
  induction count with
  | zero => rfl
  | succ count ih =>
    rw [List.range_succ, List.foldl_append]
    simp only [List.foldl_cons, List.foldl_nil, Vector.getElem_setIfInBounds, ih]
    by_cases hcount : count = v
    · subst hcount
      simp
    · have hless : v < count + 1 ↔ v < count := by omega
      rw [if_neg hcount]
      simp only [hless]

/-- The registers up to one are read. -/
theorem readRegisters_eq (m : Machine) (x : Register) :
    m.flat.readRegisters (x.val + 1) =
      .ok { m with
        registers := Machine.readRegisters m.memory m.index.toNat m.registers x }.flat := by
  have hx := x.isLt
  have hindex := m.index.toNat_lt
  have hloop : (List.range (x.val + 1)).foldlM
      (fun registers v => do
        let address ← fit UInt64.size (m.index.toNat + v)
        let b ← readByte m.memory.bytes address
        replace registers v b)
      m.registers =
        .ok (Machine.readRegisters m.memory m.index.toNat m.registers x) := by
    have hpure : Machine.readRegisters m.memory m.index.toNat m.registers x =
        (List.range (x.val + 1)).foldl (fun registers v =>
          registers.setIfInBounds v (m.memory.read (m.index.toNat + v))) m.registers := by
      refine Vector.ext fun v hv => ?_
      rw [getElem_foldl_read _ _ _ _ hv, Machine.readRegisters, Vector.getElem_ofFn]
      simp only [Nat.lt_succ_iff]
      rfl
    rw [hpure]
    refine foldlM_of_ok id _ (fun registers v hv => ?_) m.registers
    have hlt : v < 16 := by
      have hv := List.mem_range.mp hv
      omega
    refine bind_of_ok (fit64_of_lt (by omega)) (bind_of_ok (readByte_eq _ _) ?_)
    rw [replace_of_lt _ hlt]
    refine congrArg Except.ok (Vector.ext fun i hi => ?_)
    rw [id, id, Vector.getElem_set, Vector.getElem_setIfInBounds]
  rw [readRegisters]
  exact bind_of_ok hloop rfl

/-- The high byte moved to the left, joined with the low byte. -/
theorem join_bytes (high low : UInt8) :
    high.toUInt16 <<< 8 ||| low.toUInt16 = Word.ofBytes high low := by
  have hhigh := high.toNat_lt
  have hmoved : (high.toUInt16 <<< 8).toNat = high.toNat <<< 8 := by
    rw [UInt16.toNat_shiftLeft, UInt8.toNat_toUInt16]
    change high.toNat <<< 8 % 65536 = _
    refine Nat.mod_eq_of_lt ?_
    rw [Nat.shiftLeft_eq]
    omega
  rw [← UInt16.toNat_inj, Word.toNat_ofBytes, UInt16.toNat_or, hmoved, UInt8.toNat_toUInt16,
    ← Nat.shiftLeft_add_eq_or_of_lt low.toNat_lt, Nat.shiftLeft_eq, Nat.mul_comm]

theorem fetch_eq (m : Machine) : m.flat.fetch = .ok m.fetch := by
  have hcounter := m.counter.toNat_lt
  have hcounter' : m.flat.counter = m.counter := rfl
  rw [fetch, hcounter']
  exact bind_of_ok (readByte_eq m.memory _) (bind_of_ok (fit64_of_lt (by omega))
    (bind_of_ok (readByte_eq m.memory _) (congrArg Except.ok (join_bytes _ _))))

/-- Masking some bits of a number and moving them to the end. -/
theorem and_shiftRight (number shift bits : Nat) :
    (number &&& (2 ^ bits - 1) <<< shift) >>> shift = number / 2 ^ shift % 2 ^ bits := by
  rw [Nat.shiftRight_and_distrib, Nat.shiftLeft_shiftRight, Nat.and_two_pow_sub_one_eq_mod,
    Nat.shiftRight_eq_div_pow]

theorem toNat_x (w : UInt16) : ((w &&& 0x0F00) >>> 8).toNat = w.toNat / 256 % 16 := by
  rw [UInt16.toNat_shiftRight, UInt16.toNat_and]
  exact and_shiftRight w.toNat 8 4

theorem toNat_y (w : UInt16) : ((w &&& 0x00F0) >>> 4).toNat = w.toNat / 16 % 16 := by
  rw [UInt16.toNat_shiftRight, UInt16.toNat_and]
  exact and_shiftRight w.toNat 4 4

theorem toNat_group (w : UInt16) : ((w &&& 0xF000) >>> 12).toNat = Word.group w := by
  have hw := w.toNat_lt
  rw [UInt16.toNat_shiftRight, UInt16.toNat_and]
  refine (and_shiftRight w.toNat 12 4).trans ?_
  unfold Word.group
  omega

theorem toUInt8_low (w : UInt16) : (w &&& 0x00FF).toUInt8 = Word.low w := by
  have hlow : w.toNat &&& 0x00FF = w.toNat % 256 := Nat.and_two_pow_sub_one_eq_mod w.toNat 8
  rw [← UInt8.toNat_inj, UInt16.toNat_toUInt8, UInt16.toNat_and, Word.low, UInt8.toNat_ofNat']
  change (w.toNat &&& 0x00FF) % 256 = _
  omega

/-- A number below a bound is found there. -/
theorem below_of_eq {bound number : Nat} [NeZero bound] {w : UInt16}
    (h : w.toNat = number % bound) : below bound w = .ok (Fin.ofNat bound number) := by
  have hlt : w.toNat < bound := h ▸ Nat.mod_lt _ (Nat.pos_of_neZero bound)
  rw [below, dif_pos hlt]
  exact congrArg Except.ok (Fin.ext h)

/-- Every word has an instruction, and masks find the same one as divisions. -/
theorem decode_eq (w : UInt16) : decode w = .ok (.decode w) := by
  have hnibble : (w &&& 0x000F).toNat = w.toNat % 16 := by
    rw [UInt16.toNat_and]
    exact Nat.and_two_pow_sub_one_eq_mod w.toNat 4
  have htarget : (w &&& 0x0FFF).toNat = w.toNat % 4096 := by
    rw [UInt16.toNat_and]
    exact Nat.and_two_pow_sub_one_eq_mod w.toNat 12
  rw [decode]
  refine bind_of_ok (below_of_eq (toNat_x w)) (bind_of_ok (below_of_eq (toNat_y w))
    (bind_of_ok (below_of_eq hnibble) (bind_of_ok (below_of_eq htarget) ?_)))
  have hgroup := Word.group_lt w
  rw [toNat_group, toUInt8_low, Instruction.decode]
  generalize Word.group w = group at hgroup ⊢
  interval_cases group <;> rfl

end Flat

end ChipEight
