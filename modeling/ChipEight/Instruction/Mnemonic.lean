import ChipEight.Hex
import ChipEight.Instruction

/-!
# Assembly notation of instructions

Every instruction is written as a mnemonic and its operands: registers as `V` and a
digit, bytes with two digits, addresses with three, the rows of a sprite in decimal. The
two shifts name their first register only.
-/

namespace ChipEight

/-- The mnemonic of an arithmetic instruction. -/
def Arithmetic.mnemonic : Arithmetic → String
  | .copy => "LD"
  | .or => "OR"
  | .and => "AND"
  | .xor => "XOR"
  | .add => "ADD"
  | .sub => "SUB"
  | .shiftRight => "SHR"
  | .subFrom => "SUBN"
  | .shiftLeft => "SHL"

namespace Instruction

/-- A register operand. -/
def registerText (x : Register) : String := String.ofList ['V', Hex.digit x]

/-- A byte operand. -/
def byteText (b : UInt8) : String := "0x" ++ String.ofList (Hex.byte b)

/-- An address operand. -/
def addressText (a : Address) : String := "0x" ++ String.ofList (Hex.padded 3 a)

/-- The instruction in assembly notation. -/
def mnemonic : Instruction → String
  | clear => "CLS"
  | ret => "RET"
  | jump a => "JP " ++ addressText a
  | call a => "CALL " ++ addressText a
  | skipIfByte x b => "SE " ++ registerText x ++ ", " ++ byteText b
  | skipUnlessByte x b => "SNE " ++ registerText x ++ ", " ++ byteText b
  | skipIfSame x y => "SE " ++ registerText x ++ ", " ++ registerText y
  | setByte x b => "LD " ++ registerText x ++ ", " ++ byteText b
  | addByte x b => "ADD " ++ registerText x ++ ", " ++ byteText b
  | arithmetic .shiftRight x _ => Arithmetic.shiftRight.mnemonic ++ " " ++ registerText x
  | arithmetic .shiftLeft x _ => Arithmetic.shiftLeft.mnemonic ++ " " ++ registerText x
  | arithmetic op x y => op.mnemonic ++ " " ++ registerText x ++ ", " ++ registerText y
  | skipUnlessSame x y => "SNE " ++ registerText x ++ ", " ++ registerText y
  | setIndex a => "LD I, " ++ addressText a
  | jumpOffset a => "JP V0, " ++ addressText a
  | random x b => "RND " ++ registerText x ++ ", " ++ byteText b
  | draw x y n => "DRW " ++ registerText x ++ ", " ++ registerText y ++ ", " ++ toString n.val
  | skipIfDown x => "SKP " ++ registerText x
  | skipIfUp x => "SKNP " ++ registerText x
  | readDelay x => "LD " ++ registerText x ++ ", DT"
  | awaitKey x => "LD " ++ registerText x ++ ", K"
  | setDelay x => "LD DT, " ++ registerText x
  | setSound x => "LD ST, " ++ registerText x
  | addIndex x => "ADD I, " ++ registerText x
  | glyph x => "LD F, " ++ registerText x
  | storeDecimal x => "LD B, " ++ registerText x
  | storeRegisters x => "LD [I], " ++ registerText x
  | readRegisters x => "LD " ++ registerText x ++ ", [I]"
  | unsupported w => "DW 0x" ++ String.ofList (Hex.word w)

end Instruction

end ChipEight
