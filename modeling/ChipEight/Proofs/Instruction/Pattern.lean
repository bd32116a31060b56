import ChipEight.Instruction

/-!
# The words of the instructions

The table of instructions prints a word with its group, its selectors and its operand: `1NNN` is
a jump, `FX33` stores digits. `HasWord` is this table, with words as numbers and apart from the
order in which `decode` looks at their parts. Decoding finds the row of the table that has the
word, and a word is unsupported where no row has it.
-/

namespace ChipEight

namespace Word

/-- The number of a word of the form `GNNN`. -/
def withAddress (group : Nat) (target : Address) : Nat := 0x1000 * group + target.val

/-- The number of a word of the form `GXNN`. -/
def withByte (group : Nat) (x : Register) (byte : UInt8) : Nat :=
  0x1000 * group + 0x100 * x.val + byte.toNat

/-- The number of a word of the form `GXYN`. -/
def withNibble (group : Nat) (x y : Register) (n : Nat) : Nat :=
  0x1000 * group + 0x100 * x.val + 0x10 * y.val + n

variable {w : UInt16} {g : Nat}

theorem toNat_eq_withAddress_iff {target : Address} :
    w.toNat = withAddress g target ↔ group w = g ∧ address w = target := by
  have ht := target.isLt
  have haddress : (address w).val = w.toNat % 4096 := rfl
  rw [withAddress, group, ← Fin.val_inj, haddress]
  omega

theorem toNat_eq_withByte_iff {r : Register} {byte : UInt8} :
    w.toNat = withByte g r byte ↔ group w = g ∧ x w = r ∧ low w = byte := by
  have hr := r.isLt
  have hb := byte.toNat_lt
  have hx : (x w).val = w.toNat / 256 % 16 := rfl
  have hlow : (low w).toNat = w.toNat % 256 := UInt8.toNat_ofNat'
  rw [withByte, group, ← Fin.val_inj, ← UInt8.toNat_inj, hx, hlow]
  omega

theorem toNat_eq_withNibble_iff {r s : Register} {n : Nat} (hn : n < 16) :
    w.toNat = withNibble g r s n ↔
      group w = g ∧ x w = r ∧ y w = s ∧ (nibble w).val = n := by
  have hr := r.isLt
  have hs := s.isLt
  have hx : (x w).val = w.toNat / 256 % 16 := rfl
  have hy : (y w).val = w.toNat / 16 % 16 := rfl
  have hnibble : (nibble w).val = w.toNat % 16 := rfl
  rw [withNibble, group, ← Fin.val_inj, ← Fin.val_inj, hx, hy, hnibble]
  omega

end Word

namespace Arithmetic

/-- The lowest four bits of the words that stand for an operation. -/
def nibble : Arithmetic → Nat
  | copy => 0x0
  | or => 0x1
  | and => 0x2
  | xor => 0x3
  | add => 0x4
  | sub => 0x5
  | shiftRight => 0x6
  | subFrom => 0x7
  | shiftLeft => 0xE

theorem nibble_lt (operation : Arithmetic) : operation.nibble < 16 := by
  cases operation <;> decide

theorem ofNibble?_nibble (operation : Arithmetic) :
    ofNibble? (Fin.ofNat 16 operation.nibble) = some operation := by
  cases operation <;> rfl

theorem ofNibble?_eq_some_iff {n : Fin 16} {operation : Arithmetic} :
    ofNibble? n = some operation ↔ n.val = operation.nibble := by
  constructor
  · intro h
    unfold ofNibble? at h
    split at h
    case h_10 => cases h
    all_goals
      next hn =>
        cases h
        exact hn
  · intro h
    have hn : n = Fin.ofNat 16 operation.nibble := by
      refine Fin.ext ?_
      rw [h]
      exact (Nat.mod_eq_of_lt operation.nibble_lt).symm
    rw [hn, ofNibble?_nibble]

end Arithmetic

namespace Instruction

open Word (withAddress withByte withNibble)

/-- The words of an instruction. The last digit of a comparison of registers can be any. -/
def HasWord (w : UInt16) : Instruction → Prop
  | clear => w = 0x00E0
  | ret => w = 0x00EE
  | jump target => w.toNat = withAddress 0x1 target
  | call target => w.toNat = withAddress 0x2 target
  | skipIfByte x byte => w.toNat = withByte 0x3 x byte
  | skipUnlessByte x byte => w.toNat = withByte 0x4 x byte
  | skipIfSame x y => ∃ n < 16, w.toNat = withNibble 0x5 x y n
  | setByte x byte => w.toNat = withByte 0x6 x byte
  | addByte x byte => w.toNat = withByte 0x7 x byte
  | arithmetic operation x y => w.toNat = withNibble 0x8 x y operation.nibble
  | skipUnlessSame x y => ∃ n < 16, w.toNat = withNibble 0x9 x y n
  | setIndex target => w.toNat = withAddress 0xA target
  | jumpOffset target => w.toNat = withAddress 0xB target
  | random x mask => w.toNat = withByte 0xC x mask
  | draw x y rows => w.toNat = withNibble 0xD x y rows
  | skipIfDown x => w.toNat = withByte 0xE x 0x9E
  | skipIfUp x => w.toNat = withByte 0xE x 0xA1
  | readDelay x => w.toNat = withByte 0xF x 0x07
  | awaitKey x => w.toNat = withByte 0xF x 0x0A
  | setDelay x => w.toNat = withByte 0xF x 0x15
  | setSound x => w.toNat = withByte 0xF x 0x18
  | addIndex x => w.toNat = withByte 0xF x 0x1E
  | glyph x => w.toNat = withByte 0xF x 0x29
  | storeDecimal x => w.toNat = withByte 0xF x 0x33
  | storeRegisters x => w.toNat = withByte 0xF x 0x55
  | readRegisters x => w.toNat = withByte 0xF x 0x65
  | unsupported _ => False

variable {w : UInt16} {i : Instruction}

/-- A word of an instruction is decoded to it. -/
theorem decode_of_hasWord (h : i.HasWord w) : decode w = i := by
  cases i with
  | clear | ret =>
    cases h
    rfl
  | jump target | call target | setIndex target | jumpOffset target =>
    obtain ⟨hgroup, rfl⟩ := Word.toNat_eq_withAddress_iff.mp h
    simp only [decode, hgroup]
  | skipIfByte x byte | skipUnlessByte x byte | setByte x byte | addByte x byte
  | random x byte =>
    obtain ⟨hgroup, rfl, rfl⟩ := Word.toNat_eq_withByte_iff.mp h
    simp only [decode, hgroup]
  | skipIfSame x y | skipUnlessSame x y =>
    obtain ⟨n, hn, hword⟩ := h
    obtain ⟨hgroup, rfl, rfl, -⟩ := (Word.toNat_eq_withNibble_iff hn).mp hword
    simp only [decode, hgroup]
  | arithmetic operation x y =>
    obtain ⟨hgroup, rfl, rfl, hnibble⟩ :=
      (Word.toNat_eq_withNibble_iff operation.nibble_lt).mp h
    simp only [decode, hgroup, Arithmetic.ofNibble?_eq_some_iff.mpr hnibble]
  | draw x y rows =>
    obtain ⟨hgroup, rfl, rfl, hrows⟩ := (Word.toNat_eq_withNibble_iff rows.isLt).mp h
    obtain rfl := Fin.ext hrows
    simp only [decode, hgroup]
  | skipIfDown x | skipIfUp x =>
    obtain ⟨hgroup, rfl, hlow⟩ := Word.toNat_eq_withByte_iff.mp h
    simp only [decode, hgroup, ofKeyWord, hlow]
    rfl
  | readDelay x | awaitKey x | setDelay x | setSound x | addIndex x | glyph x | storeDecimal x
  | storeRegisters x | readRegisters x =>
    obtain ⟨hgroup, rfl, hlow⟩ := Word.toNat_eq_withByte_iff.mp h
    simp only [decode, hgroup, ofDeviceWord, hlow]
    rfl
  | unsupported word => cases h

theorem hasWord_ofKeyWord (hgroup : Word.group w = 0xE) :
    (ofKeyWord w).HasWord w ∨ ofKeyWord w = .unsupported w := by
  unfold ofKeyWord
  split
  case h_3 => exact Or.inr rfl
  all_goals
    next hlow =>
      exact Or.inl (Word.toNat_eq_withByte_iff.mpr ⟨hgroup, rfl, UInt8.toNat_inj.mp hlow⟩)

theorem hasWord_ofDeviceWord (hgroup : Word.group w = 0xF) :
    (ofDeviceWord w).HasWord w ∨ ofDeviceWord w = .unsupported w := by
  unfold ofDeviceWord
  split
  case h_10 => exact Or.inr rfl
  all_goals
    next hlow =>
      exact Or.inl (Word.toNat_eq_withByte_iff.mpr ⟨hgroup, rfl, UInt8.toNat_inj.mp hlow⟩)

/-- A word that is not unsupported is one of those of its instruction. -/
theorem hasWord_decode (w : UInt16) :
    (decode w).HasWord w ∨ decode w = .unsupported w := by
  unfold decode
  split
  case h_1 =>
    split
    · next hclear => exact Or.inl hclear
    · split
      · next hret => exact Or.inl hret
      · exact Or.inr rfl
  case h_2 hgroup | h_3 hgroup | h_11 hgroup | h_12 hgroup =>
    exact Or.inl (Word.toNat_eq_withAddress_iff.mpr ⟨hgroup, rfl⟩)
  case h_4 hgroup | h_5 hgroup | h_7 hgroup | h_8 hgroup | h_13 hgroup =>
    exact Or.inl (Word.toNat_eq_withByte_iff.mpr ⟨hgroup, rfl, rfl⟩)
  case h_6 hgroup | h_10 hgroup =>
    have hn := (Word.nibble w).isLt
    exact Or.inl ⟨_, hn, (Word.toNat_eq_withNibble_iff hn).mpr ⟨hgroup, rfl, rfl, rfl⟩⟩
  case h_9 hgroup =>
    split
    · next operation hoperation =>
      have hnibble := Arithmetic.ofNibble?_eq_some_iff.mp hoperation
      exact Or.inl ((Word.toNat_eq_withNibble_iff operation.nibble_lt).mpr
        ⟨hgroup, rfl, rfl, hnibble⟩)
    · exact Or.inr rfl
  case h_14 hgroup =>
    exact Or.inl ((Word.toNat_eq_withNibble_iff (Word.nibble w).isLt).mpr
      ⟨hgroup, rfl, rfl, rfl⟩)
  case h_15 hgroup => exact hasWord_ofKeyWord hgroup
  case h_16 =>
    have hlt := Word.group_lt w
    have hgroup : Word.group w = 0xF := by grind
    exact hasWord_ofDeviceWord hgroup

/-- A word is one of those of an instruction exactly where it is decoded to it, so no word is one of
two instructions. -/
theorem hasWord_iff : i.HasWord w ↔ decode w = i ∧ ∀ word, i ≠ .unsupported word := by
  constructor
  · intro h
    refine ⟨decode_of_hasWord h, ?_⟩
    rintro word rfl
    exact h
  · rintro ⟨rfl, hsupported⟩
    exact (hasWord_decode w).resolve_right (hsupported w)

/-- Exactly the words of no instruction are unsupported. -/
theorem decode_eq_unsupported_iff {word : UInt16} :
    decode w = .unsupported word ↔ word = w ∧ ∀ i : Instruction, ¬ i.HasWord w := by
  constructor
  · intro h
    rcases hasWord_decode w with hword | hnone
    · rw [h] at hword
      cases hword
    · cases h.symm.trans hnone
      refine ⟨rfl, fun i hword => ?_⟩
      rw [decode_of_hasWord hword] at h
      exact (hasWord_iff.mp hword).2 w h
  · rintro ⟨rfl, hnone⟩
    exact (hasWord_decode word).resolve_left (hnone _)

end Instruction

end ChipEight
