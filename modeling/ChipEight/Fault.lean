import ChipEight.ProgramImage
import ChipEight.Text.Quoted

/-!
# Faults

Everything that can go wrong with a machine, its loads and its program files, as causes;
the wording is in one function.
-/

namespace ChipEight

/-- Why an instruction could not be executed. -/
inductive StackFault
  /-- A call while every place of the stack is occupied. -/
  | overflow
  /-- A return while no place of the stack is occupied. -/
  | underflow
  deriving DecidableEq, Repr

/-- Why a file could not be read. -/
inductive FileFault
  /-- There is no file of that name. -/
  | missing
  /-- The name is that of a directory. -/
  | directory
  /-- A name with more names behind it is that of a file. -/
  | notDirectory
  /-- A name or the whole path has more bytes than the system allows. -/
  | nameTooLong
  /-- The content is not text. -/
  | notText
  /-- The system gives another reason in its own words. -/
  | other (reason : String)
  deriving DecidableEq, Repr

/-- The words of the system for a reason. -/
def FileFault.message : FileFault → String
  | missing => "No such file or directory (os error 2)"
  | directory => "Is a directory (os error 21)"
  | notDirectory => "Not a directory (os error 20)"
  | nameTooLong => "File name too long (os error 36)"
  | notText => "stream did not contain valid UTF-8"
  | other reason => reason

/-- What can go wrong. -/
inductive Fault
  /-- A program is longer than the memory that is left for it. -/
  | programTooLarge
  /-- An instruction could not be executed. -/
  | stack (cause : StackFault)
  /-- Glyphs could not be loaded. -/
  | font (detail : String)
  /-- A word of a program image is malformed. -/
  | badWord (word : ProgramImage.BadWord)
  /-- A file could not be read. -/
  | file (cause : FileFault)
  /-- A text could not be written. -/
  | unwritable
  deriving DecidableEq, Repr

namespace Fault

/-- The detail of a fault of glyphs that take more than the given number of bytes. -/
def fontSizeDetail (room size : Nat) : String :=
  "fontset data must fit in " ++ toString room ++ " bytes, got " ++ toString size

/-- What a malformed word is called, its place, and what it lacks. -/
def badWordMessage (b : ProgramImage.BadWord) : String :=
  let place := toString b.position ++ ": " ++ String.ofList (Text.quoted b.text)
  match b.defect with
  | .length => "unexpected word length at token " ++ place ++ " must be 4 characters"
  | .digit => "failed to decode word at token " ++ place ++ " is not hexadecimal"

/-- The wording of a fault. -/
def message : Fault → String
  | programTooLarge => "program too large for VM memory"
  | stack .overflow => "call stack overflow"
  | stack .underflow => "call stack underflow"
  | font detail => "font error: " ++ detail
  | badWord b => badWordMessage b
  | file cause => cause.message
  | unwritable => "an error occurred when formatting an argument"

/-- The wording of the fault below a fault, where the fault only passes it on. -/
def source? : Fault → Option String
  | file cause => some cause.message
  | unwritable => some unwritable.message
  | _ => none

end Fault

end ChipEight
