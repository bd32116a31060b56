import ChipEight.Hex
import ChipEight.Text.Words

/-!
# Program images in hexadecimal text

An image is a text of words between blanks. Every word has exactly four hexadecimal
digits and stands for two bytes, the high one first. The first word that has another
form makes the whole image unreadable; the fault names its place among the words, its
text and what is wrong with it.
-/

namespace ChipEight.ProgramImage

/-- What is wrong with a word of an image. -/
inductive Defect
  /-- The word has not exactly four characters. -/
  | length
  /-- The word has four characters, and one of them is not a hexadecimal digit. -/
  | digit
  deriving DecidableEq, Repr

/-- The first malformed word of an image. -/
structure BadWord where
  /-- The number of the word, from one on. -/
  position : Nat
  /-- The word as it was written. -/
  text : List Char
  /-- What is wrong with it. -/
  defect : Defect
  deriving DecidableEq, Repr

/-- The two bytes of a word of four digits. The count of characters is looked at before the digits.
-/
def readWord : List Char → Except Defect (UInt8 × UInt8)
  | [a, b, c, d] =>
    match Hex.value? a, Hex.value? b, Hex.value? c, Hex.value? d with
    | some p, some q, some r, some s => .ok (UInt8.ofNat (16 * p + q), UInt8.ofNat (16 * r + s))
    | _, _, _, _ => .error .digit
  | _ => .error .length

/-- The bytes of a list of words whose first one stands at the given place. -/
def readWords (position : Nat) : List (List Char) → Except BadWord (List UInt8)
  | [] => .ok []
  | w :: ws =>
    match readWord w with
    | .error defect => .error ⟨position, w, defect⟩
    | .ok (high, low) => (readWords (position + 1) ws).map fun bytes => high :: low :: bytes

/-- The bytes of an image. -/
def read (text : List Char) : Except BadWord (List UInt8) := readWords 1 (Text.words text)

end ChipEight.ProgramImage
