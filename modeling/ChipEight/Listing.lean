import ChipEight.Instruction.Mnemonic
import ChipEight.Memory

/-!
# Listings of program images

A listing shows an image word by word as it would lie in memory: the address, the word,
and the instruction. An odd byte at the end is shown with a zero byte behind it. A
`Reader` walks along an image line by line and may go past its end, where it reads zero
bytes; starting over gives the same whole listing whatever was read before.
-/

namespace ChipEight.Listing

/-- The line of a word at an address, without the end of the line. -/
def line (address : Nat) (w : UInt16) : List Char :=
  Hex.padded 4 address ++ [':', ' '] ++ Hex.word w ++ [' ', ' '] ++
    (Instruction.decode w).mnemonic.toList

/-- The words of an image in order; an odd byte at its end becomes the high byte of a last word. -/
def wordsOf : List UInt8 → List UInt16
  | [] => []
  | [b] => [Word.ofBytes b 0]
  | a :: b :: rest => Word.ofBytes a b :: wordsOf rest

/-- The lines of words that lie one behind the other from an address on. -/
def linesFrom (address : Nat) : List UInt16 → List (List Char)
  | [] => []
  | w :: ws => line address w :: linesFrom (address + 2) ws

/-- The lines of the listing of an image. -/
def lines (bytes : List UInt8) : List (List Char) := linesFrom Memory.programStart (wordsOf bytes)

/-- Lines as a text, each with its end. -/
def unlines (ls : List (List Char)) : List Char := ls.flatMap fun l => l ++ ['\n']

/-- The listing of an image as a text. -/
def render (bytes : List UInt8) : List Char := unlines (lines bytes)

/-- A place in an image, from which the next line is read. -/
structure Reader where
  /-- The image. -/
  bytes : List UInt8
  /-- The number of bytes in front of the next line. -/
  cursor : Nat
  deriving DecidableEq, Repr

namespace Reader

/-- A reader at the start of an image. -/
def ofBytes (bytes : List UInt8) : Reader := ⟨bytes, 0⟩

/-- The line at the cursor with its end, and the reader behind it. Bytes past the end are zero. -/
def next (r : Reader) : List Char × Reader :=
  let w := Word.ofBytes (r.bytes[r.cursor]?.getD 0) (r.bytes[r.cursor + 1]?.getD 0)
  (line (Memory.programStart + r.cursor) w ++ ['\n'], { r with cursor := r.cursor + 2 })

/-- The lines from the cursor to the end of the image, and the reader behind the last one. -/
def toEnd (r : Reader) : List Char × Reader :=
  if r.cursor < r.bytes.length then
    let first := r.next
    let others := first.2.toEnd
    (first.1 ++ others.1, others.2)
  else ([], r)
termination_by r.bytes.length - r.cursor
decreasing_by
  simp only [next]
  omega

/-- The whole listing, read from the start wherever the cursor is, and the reader behind its last
line. -/
def all (r : Reader) : List Char × Reader := { r with cursor := 0 }.toEnd

end Reader

end ChipEight.Listing
