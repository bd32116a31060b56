import ChipEight.Listing
import ChipEight.Machine

/-!
# Showing the machine

Memory, keys and screen as text for a reader.
-/

namespace ChipEight.Machine

/-- The places from the start of programs on, two bytes apart, that a dump of so many bytes shows.
The last byte of memory is never the first one of a line. -/
def dumpPlaces (count : Nat) : List Nat :=
  let stop := min (count + Memory.programStart) 4095
  (List.range ((stop - Memory.programStart + 1) / 2)).map fun k => Memory.programStart + 2 * k

/-- The line of the two bytes at a place. -/
def dumpLine (m : Machine) (place : Nat) : List Char :=
  Hex.padded 4 place ++ [':', ' '] ++ Hex.byte (m.memory.read place) ++
    Hex.byte (m.memory.read (place + 1))

/-- The program memory in lines of two bytes. -/
def dumpMemory (m : Machine) (count : Nat) : List Char :=
  Listing.unlines ((dumpPlaces count).map m.dumpLine)

/-- The keys that are down, in ascending order; nothing when all are up. -/
def dumpKeys (m : Machine) : List Char :=
  match m.keypad.down with
  | [] => []
  | keys => "keys: ".toList ++ keys.flatMap Key.text

end ChipEight.Machine
