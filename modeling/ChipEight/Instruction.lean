import ChipEight.Word

/-!
# Instructions

The thirty-five instructions of the machine as values, and the decoding of a word.
Decoding never fails: a word that is no instruction becomes `unsupported`.
-/

namespace ChipEight

/-- What an arithmetic instruction does with its two registers. -/
inductive Arithmetic
  /-- Take the second operand. -/
  | copy
  /-- Join the bits. -/
  | or
  /-- Keep the common bits. -/
  | and
  /-- Keep the differing bits. -/
  | xor
  /-- Add; the flag is the carry. -/
  | add
  /-- Take the second operand from the first; the flag tells that the first is greater. -/
  | sub
  /-- Halve the first operand; the flag is its lowest bit. -/
  | shiftRight
  /-- Take the first operand from the second; the flag tells that the second is greater. -/
  | subFrom
  /-- Double the first operand; the flag is its highest bit. -/
  | shiftLeft
  deriving DecidableEq, Repr

/-- An instruction with its operands. -/
inductive Instruction
  /-- Clear the screen. -/
  | clear
  /-- Return from a subroutine. -/
  | ret
  /-- Go on at an address. -/
  | jump (target : Address)
  /-- Call the subroutine at an address. -/
  | call (target : Address)
  /-- Skip the next instruction if a register holds the byte. -/
  | skipIfByte (x : Register) (byte : UInt8)
  /-- Skip the next instruction if a register does not hold the byte. -/
  | skipUnlessByte (x : Register) (byte : UInt8)
  /-- Skip the next instruction if two registers agree. -/
  | skipIfSame (x y : Register)
  /-- Set a register to a byte. -/
  | setByte (x : Register) (byte : UInt8)
  /-- Add a byte to a register, without a flag. -/
  | addByte (x : Register) (byte : UInt8)
  /-- Combine two registers. -/
  | arithmetic (operation : Arithmetic) (x y : Register)
  /-- Skip the next instruction if two registers differ. -/
  | skipUnlessSame (x y : Register)
  /-- Set the index to an address. -/
  | setIndex (target : Address)
  /-- Go on at an address plus the first register. -/
  | jumpOffset (target : Address)
  /-- Set a register to a random byte under a mask. -/
  | random (x : Register) (mask : UInt8)
  /-- Draw a sprite of some rows at the place that two registers name. -/
  | draw (x y : Register) (rows : Fin 16)
  /-- Skip the next instruction if the key that a register names is down. -/
  | skipIfDown (x : Register)
  /-- Skip the next instruction if the key that a register names is up. -/
  | skipIfUp (x : Register)
  /-- Set a register to the delay timer. -/
  | readDelay (x : Register)
  /-- Wait for a key and set a register to it. -/
  | awaitKey (x : Register)
  /-- Set the delay timer to a register. -/
  | setDelay (x : Register)
  /-- Set the sound timer to a register. -/
  | setSound (x : Register)
  /-- Add a register to the index. -/
  | addIndex (x : Register)
  /-- Set the index to the glyph of the digit in a register. -/
  | glyph (x : Register)
  /-- Store the three decimal digits of a register at the index. -/
  | storeDecimal (x : Register)
  /-- Store the registers up to the given one at the index. -/
  | storeRegisters (x : Register)
  /-- Read the registers up to the given one from the index. -/
  | readRegisters (x : Register)
  /-- A word that is no instruction. -/
  | unsupported (word : UInt16)
  deriving DecidableEq, Repr

/-- The arithmetic that the lowest four bits of a word select. -/
def Arithmetic.ofNibble? (n : Fin 16) : Option Arithmetic :=
  match n.val with
  | 0x0 => some .copy
  | 0x1 => some .or
  | 0x2 => some .and
  | 0x3 => some .xor
  | 0x4 => some .add
  | 0x5 => some .sub
  | 0x6 => some .shiftRight
  | 0x7 => some .subFrom
  | 0xE => some .shiftLeft
  | _ => none

namespace Instruction

/-- The instructions of the group `E___`, selected by the low byte. -/
def ofKeyWord (w : UInt16) : Instruction :=
  match (Word.low w).toNat with
  | 0x9E => .skipIfDown (Word.x w)
  | 0xA1 => .skipIfUp (Word.x w)
  | _ => .unsupported w

/-- The instructions of the group `F___`, selected by the low byte. -/
def ofDeviceWord (w : UInt16) : Instruction :=
  match (Word.low w).toNat with
  | 0x07 => .readDelay (Word.x w)
  | 0x0A => .awaitKey (Word.x w)
  | 0x15 => .setDelay (Word.x w)
  | 0x18 => .setSound (Word.x w)
  | 0x1E => .addIndex (Word.x w)
  | 0x29 => .glyph (Word.x w)
  | 0x33 => .storeDecimal (Word.x w)
  | 0x55 => .storeRegisters (Word.x w)
  | 0x65 => .readRegisters (Word.x w)
  | _ => .unsupported w

/-- The instruction of a word. The lowest four bits of `5XY_` and `9XY_` are not looked at. -/
def decode (w : UInt16) : Instruction :=
  match Word.group w with
  | 0x0 => if w = 0x00E0 then .clear else if w = 0x00EE then .ret else .unsupported w
  | 0x1 => .jump (Word.address w)
  | 0x2 => .call (Word.address w)
  | 0x3 => .skipIfByte (Word.x w) (Word.low w)
  | 0x4 => .skipUnlessByte (Word.x w) (Word.low w)
  | 0x5 => .skipIfSame (Word.x w) (Word.y w)
  | 0x6 => .setByte (Word.x w) (Word.low w)
  | 0x7 => .addByte (Word.x w) (Word.low w)
  | 0x8 =>
    match Arithmetic.ofNibble? (Word.nibble w) with
    | some operation => .arithmetic operation (Word.x w) (Word.y w)
    | none => .unsupported w
  | 0x9 => .skipUnlessSame (Word.x w) (Word.y w)
  | 0xA => .setIndex (Word.address w)
  | 0xB => .jumpOffset (Word.address w)
  | 0xC => .random (Word.x w) (Word.low w)
  | 0xD => .draw (Word.x w) (Word.y w) (Word.nibble w)
  | 0xE => ofKeyWord w
  | _ => ofDeviceWord w

end Instruction

end ChipEight
