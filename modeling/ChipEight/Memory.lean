import ChipEight.Word

/-!
# Memory

The 4096 bytes of the machine. A place is any number; only its lowest twelve bits count,
so reading and writing wrap around the end of memory.
-/

namespace ChipEight

/-- The memory of a machine. -/
structure Memory where
  /-- A byte for each address. -/
  bytes : Vector UInt8 4096
  deriving DecidableEq

namespace Memory

/-- Where programs lie. -/
def programStart : Nat := 0x200

/-- The bytes from the start of programs to the end of memory. -/
def programRoom : Nat := 4096 - programStart

/-- Memory of zero bytes. -/
def zero : Memory := ⟨Vector.replicate 4096 0⟩

/-- The byte at a place. -/
def read (m : Memory) (place : Nat) : UInt8 := m.bytes[place % 4096]

/-- Memory with another byte at a place. -/
def write (m : Memory) (place : Nat) (b : UInt8) : Memory := ⟨m.bytes.set (place % 4096) b⟩

/-- The bytes at a place and behind it. -/
def readBlock (m : Memory) (place count : Nat) : List UInt8 :=
  (List.range count).map fun i => m.read (place + i)

/-- Memory with other bytes at a place and behind it. -/
def writeBlock (m : Memory) (place : Nat) : List UInt8 → Memory
  | [] => m
  | b :: rest => (m.write place b).writeBlock (place + 1) rest

/-- The word at a place, the high byte first. -/
def readWord (m : Memory) (place : Nat) : UInt16 :=
  Word.ofBytes (m.read place) (m.read (place + 1))

@[simp] theorem read_zero (place : Nat) : zero.read place = 0 := by
  simp [zero, read]

/-- A written byte is read back at the same place and nowhere else. -/
theorem read_write (m : Memory) (place other : Nat) (b : UInt8) :
    (m.write place b).read other = if place % 4096 = other % 4096 then b else m.read other := by
  simp only [read, write, Vector.getElem_set]

/-- Reading looks at the lowest twelve bits of the place only. -/
@[simp] theorem read_mod (m : Memory) (place : Nat) : m.read (place % 4096) = m.read place := by
  simp [read]

@[simp] theorem length_readBlock (m : Memory) (place count : Nat) :
    (m.readBlock place count).length = count := by
  simp [readBlock]

/-- The bytes of a block lie one behind the other. -/
@[simp] theorem getElem_readBlock (m : Memory) (place count : Nat) {i : Nat}
    (h : i < (m.readBlock place count).length) :
    (m.readBlock place count)[i] = m.read (place + i) := by
  simp [readBlock]

end Memory

end ChipEight
