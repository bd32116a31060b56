import ChipEight.Table

/-!
# Instruction words

A word is two bytes, the high one first. From its left it holds the group, the two
register selectors, and a nibble; the low byte and the low twelve bits are read as
numbers of their own.
-/

namespace ChipEight

/-- A place in memory, as far as an instruction word can name one. -/
abbrev Address := Fin 4096

/-- Memory has a first place. -/
instance places_ne_zero : @NeZero Nat Zero.ofOfNat0 4096 := ⟨by decide⟩

/-- The number of one of the sixteen registers. -/
abbrev Register := Fin 16

namespace Word

/-- The word of two bytes, the high one first. -/
def ofBytes (high low : UInt8) : UInt16 := UInt16.ofNat (256 * high.toNat + low.toNat)

/-- The high byte of a word. -/
def high (w : UInt16) : UInt8 := UInt8.ofNat (w.toNat / 256)

/-- The low byte of a word, which is also its byte operand. -/
def low (w : UInt16) : UInt8 := UInt8.ofNat w.toNat

/-- The uppermost four bits, which tell the group of the instruction. -/
def group (w : UInt16) : Nat := w.toNat / 4096

/-- The first register selector. -/
def x (w : UInt16) : Register := Fin.ofNat 16 (w.toNat / 256)

/-- The second register selector. -/
def y (w : UInt16) : Register := Fin.ofNat 16 (w.toNat / 16)

/-- The lowest four bits. -/
def nibble (w : UInt16) : Fin 16 := Fin.ofNat 16 w.toNat

/-- The lowest twelve bits. -/
def address (w : UInt16) : Address := Fin.ofNat 4096 w.toNat

/-- A word is made of its two bytes. -/
@[simp] theorem ofBytes_high_low (w : UInt16) : ofBytes (high w) (low w) = w := by
  have h := w.toNat_lt
  apply UInt16.toNat_inj.1
  simp only [ofBytes, high, low, UInt16.toNat_ofNat', UInt8.toNat_ofNat']
  omega

/-- The number of a word made of two bytes. -/
@[simp] theorem toNat_ofBytes (high low : UInt8) :
    (ofBytes high low).toNat = 256 * high.toNat + low.toNat := by
  have h := high.toNat_lt
  have l := low.toNat_lt
  simp only [ofBytes, UInt16.toNat_ofNat']
  omega

/-- The high byte of a word made of two bytes is the first one. -/
@[simp] theorem high_ofBytes (a b : UInt8) : high (ofBytes a b) = a := by
  have hb := b.toNat_lt
  rw [high, toNat_ofBytes, show (256 * a.toNat + b.toNat) / 256 = a.toNat by omega]
  exact UInt8.ofNat_toNat

/-- The low byte of a word made of two bytes is the second one. -/
@[simp] theorem low_ofBytes (a b : UInt8) : low (ofBytes a b) = b := by
  have hb := b.toNat_lt
  apply UInt8.toNat_inj.1
  rw [low, toNat_ofBytes, UInt8.toNat_ofNat']
  omega

/-- The group has four bits. -/
theorem group_lt (w : UInt16) : group w < 16 := by
  have h := w.toNat_lt
  unfold group
  omega

end Word

end ChipEight
