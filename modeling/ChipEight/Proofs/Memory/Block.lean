import ChipEight.Memory

/-!
# Written blocks

A block of at most 4096 bytes that is written from a place on, around the end of memory,
is read back byte by byte, and every other place keeps its byte.
-/

namespace ChipEight.Memory

/-- Behind a written block, a place holds the byte of the block as far as the place lies behind the
block's start, and its own byte where the block does not reach. -/
theorem read_writeBlock (m : Memory) (place other : Nat) {block : List UInt8}
    (h : block.length ≤ 4096) :
    (m.writeBlock place block).read other =
      block[(other + (4096 - place % 4096)) % 4096]?.getD (m.read other) := by
  induction block generalizing m place with
  | nil => rfl
  | cons b rest ih =>
    rw [List.length_cons] at h
    rw [writeBlock, ih _ _ (by omega), read_write]
    by_cases hplace : place % 4096 = other % 4096
    · -- the rest of the block does not come around to the place again
      have hfirst : (other + (4096 - place % 4096)) % 4096 = 0 := by omega
      have hfar : rest.length ≤ (other + (4096 - (place + 1) % 4096)) % 4096 := by omega
      rw [if_pos hplace, hfirst, List.getElem?_eq_none hfar]
      rfl
    · have hnext : (other + (4096 - place % 4096)) % 4096 =
          (other + (4096 - (place + 1) % 4096)) % 4096 + 1 := by omega
      rw [if_neg hplace, hnext, List.getElem?_cons_succ]

/-- The bytes of a written block lie one behind the other, also around the end of memory. -/
theorem read_writeBlock_add (m : Memory) (place : Nat) {offset : Nat} {block : List UInt8}
    (hoffset : offset < 4096) (h : block.length ≤ 4096) :
    (m.writeBlock place block).read (place + offset) =
      block[offset]?.getD (m.read (place + offset)) := by
  have hbehind : (place + offset + (4096 - place % 4096)) % 4096 = offset := by omega
  rw [read_writeBlock m _ _ h, hbehind]

/-- A place that no byte of a written block comes to keeps its own. -/
theorem read_writeBlock_of_outside (m : Memory) {place other : Nat} {block : List UInt8}
    (h : block.length ≤ 4096)
    (houtside : ∀ i < block.length, other % 4096 ≠ (place + i) % 4096) :
    (m.writeBlock place block).read other = m.read other := by
  have hbehind : block.length ≤ (other + (4096 - place % 4096)) % 4096 := by
    refine Nat.le_of_not_lt fun hlt => houtside _ hlt ?_
    omega
  rw [read_writeBlock m _ _ h, List.getElem?_eq_none hbehind]
  rfl

/-- A block that ends before the end of memory comes to the places from its start on. -/
theorem read_writeBlock_of_fits (m : Memory) {start place : Nat} {block : List UInt8}
    (h : start + block.length ≤ 4096) (hplace : place < 4096) :
    (m.writeBlock start block).read place =
      if start ≤ place then block[place - start]?.getD (m.read place) else m.read place := by
  rw [read_writeBlock m _ _ (by omega)]
  split
  · have hbehind : (place + (4096 - start % 4096)) % 4096 = place - start := by omega
    rw [hbehind]
  · have hbehind : block.length ≤ (place + (4096 - start % 4096)) % 4096 := by omega
    rw [List.getElem?_eq_none hbehind]
    rfl

/-- Memory is what is read from it. -/
theorem eq_of_read {m n : Memory} (h : ∀ place < 4096, m.read place = n.read place) : m = n := by
  obtain ⟨bytes⟩ := m
  obtain ⟨bytes'⟩ := n
  refine congrArg _ (Vector.ext fun place hplace => ?_)
  simpa [read, Nat.mod_eq_of_lt hplace] using h place hplace

/-- Two blocks one behind the other may be written in either order. -/
theorem writeBlock_comm (m : Memory) {start start' : Nat} {block block' : List UInt8}
    (h : start + block.length ≤ start') (h' : start' + block'.length ≤ 4096) :
    (m.writeBlock start block).writeBlock start' block' =
      (m.writeBlock start' block').writeBlock start block := by
  refine eq_of_read fun place hplace => ?_
  have hfits : start + block.length ≤ 4096 := by omega
  rw [read_writeBlock_of_fits _ h' hplace, read_writeBlock_of_fits _ hfits hplace,
    read_writeBlock_of_fits _ hfits hplace, read_writeBlock_of_fits _ h' hplace]
  by_cases hsecond : start' ≤ place
  · -- the first block has ended before
    have hbehind : block.length ≤ place - start := by omega
    rw [List.getElem?_eq_none hbehind]
    simp [hsecond]
  · simp [hsecond]

end ChipEight.Memory
