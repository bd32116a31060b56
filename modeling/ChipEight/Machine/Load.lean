import ChipEight.Fault
import ChipEight.Font
import ChipEight.Log
import ChipEight.Machine

/-!
# Loading programs and glyphs

Programs lie from `Memory.programStart` to the end of memory, glyphs in front of them
from `Font.start` on. What does not fit is refused as a whole.
-/

namespace ChipEight.Machine

/-- The machine with a program in memory. -/
def loadProgram (m : Machine) (program : List UInt8) : Except Fault Machine :=
  if program.length ≤ Memory.programRoom then
    .ok { m with memory := m.memory.writeBlock Memory.programStart program }
  else .error .programTooLarge

/-- The bytes from the start of the glyphs to the start of programs. -/
def fontRoom : Nat := Memory.programStart - Font.start

/-- The machine with glyphs in memory. -/
def loadFont (m : Machine) (glyphs : List UInt8) : Except Fault Machine :=
  if glyphs.length ≤ fontRoom then
    .ok { m with memory := m.memory.writeBlock Font.start glyphs }
  else .error (.font (Fault.fontSizeDetail fontRoom glyphs.length))

/-- A new machine with the glyphs of the digits and a program in memory. -/
def boot (config : Config) (key : Vector UInt32 8) (program : List UInt8) :
    Except Fault Machine := do
  let m ← (new config key).loadFont Font.glyphs
  m.loadProgram program

/-- What the log says about a program that was loaded. -/
def loadLog (program : List UInt8) : List Log.Entry :=
  if program.length ≤ Memory.programRoom then
    let size := (toString program.length).toList
    [⟨.debug, "loaded program of ".toList ++ size ++ " bytes".toList⟩]
  else []

end ChipEight.Machine
