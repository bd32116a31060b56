import ChipEight.Proofs.Flat.Refinement

/-!
# Drawing a sprite

A drawing instruction turns over exactly the cells that its sprite covers, all at once:
`Covers` says which cells those are, from the index and the two registers as they were before
the instruction, also where one of them is the flag. No cell is covered twice, so turning the
cells over one after the other, as the flat machine does, comes to the same.
-/

namespace ChipEight

namespace Screen

/-- Whether a byte has a cell at a column is told by one bit of its number. -/
theorem hasCell_eq_testBit (cells : UInt8) {column : Nat} (h : column < 8) :
    hasCell cells column = cells.toNat.testBit (7 - column) := by
  rw [hasCell, BitVec.getMsbD_eq_getLsbD, decide_eq_true h, Bool.true_and,
    ← BitVec.testBit_toNat]
  rfl

end Screen

namespace Machine

/-- The sprite of some rows at the index, with its upper left corner where two registers say, has a
cell in a column and a row of the screen. The leftmost cell of a sprite's row is the highest
bit of its byte. -/
def Covers (m : Machine) (x y : Register) (rows a b : Nat) : Prop :=
  ∃ r < rows, ∃ c < 8,
    a = ((m.registers.get x).toNat + c) % 64 ∧ b = ((m.registers.get y).toNat + r) % 32 ∧
      m.memory.bytes[(m.index.toNat + r) % 4096].toNat.testBit (7 - c) = true

instance (m : Machine) (x y : Register) (rows a b : Nat) : Decidable (m.Covers x y rows a b) :=
  inferInstanceAs (Decidable (∃ r < rows, ∃ c < 8, _))

/-- The sprite covers a set cell. -/
def Hits (m : Machine) (x y : Register) (rows : Nat) : Prop :=
  ∃ a < 64, ∃ b < 32, m.Covers x y rows a b ∧ m.screen.pixel a b = true

instance (m : Machine) (x y : Register) (rows : Nat) : Decidable (m.Hits x y rows) :=
  inferInstanceAs (Decidable (∃ a < 64, ∃ b < 32, _ ∧ _))

/-- The overlay of a sprite has the cells that the sprite covers. -/
theorem pixel_spriteOverlay (m : Machine) (x y : Register) {rows a b : Nat} (hrows : rows ≤ 32)
    (ha : a < 64) (hb : b < 32) :
    (m.spriteOverlay x y rows).pixel a b = decide (m.Covers x y rows a b) := by
  have hlength := m.memory.length_readBlock m.index.toNat rows
  rw [Bool.eq_iff_iff, decide_eq_true_iff, spriteOverlay,
    Screen.pixel_overlay (by omega) _ _ ha hb]
  constructor
  · rintro ⟨r, c, hr, hcell, rfl, rfl⟩
    have hc := Screen.lt_of_hasCell hcell
    rw [Memory.getElem_readBlock, Screen.hasCell_eq_testBit _ hc] at hcell
    exact ⟨r, by omega, c, hc, rfl, rfl, hcell⟩
  · rintro ⟨r, hr, c, hc, rfl, rfl, hbit⟩
    refine ⟨r, c, by omega, ?_, rfl, rfl⟩
    rw [Memory.getElem_readBlock, Screen.hasCell_eq_testBit _ hc]
    exact hbit

/-- A screen meets the overlay of a sprite where the sprite covers a set cell. -/
theorem meets_spriteOverlay (m : Machine) (s : Screen) (x y : Register) {rows : Nat}
    (hrows : rows ≤ 32) :
    s.meets (m.spriteOverlay x y rows) = true ↔
      ∃ a < 64, ∃ b < 32, m.Covers x y rows a b ∧ s.pixel a b = true := by
  rw [Screen.meets_iff]
  constructor
  · rintro ⟨a, b, hset, hcovered⟩
    obtain ⟨ha, hb⟩ := s.lt_of_pixel hset
    rw [m.pixel_spriteOverlay x y hrows ha hb, decide_eq_true_iff] at hcovered
    exact ⟨a, ha, b, hb, hcovered, hset⟩
  · rintro ⟨a, ha, b, hb, hcovered, hset⟩
    refine ⟨a, b, hset, ?_⟩
    rw [m.pixel_spriteOverlay x y hrows ha hb]
    exact decide_eq_true hcovered

/-- A step that draws is drawing the overlay of the sprite behind the instruction. -/
theorem step_of_draw {m : Machine} {x y : Register} {rows : Fin 16}
    (h : m.nextInstruction = .draw x y rows) :
    m.step = (.ok .draw, (m.goTo (m.counter + 2)).drawOverlay (m.spriteOverlay x y rows)) := by
  rw [step, h]
  rfl

end Machine

/-- On bytes and words the step that draws succeeds as well. -/
theorem Flat.step_of_draw {m : Machine} {x y : Register} {rows : Fin 16}
    (h : m.nextInstruction = .draw x y rows) :
    m.flat.step = .ok (.ok .draw, m.step.2.flat) := by
  have hdraw : (m.goTo (m.counter + 2)).flat.execute (.draw x y rows) =
      .ok (.ok .draw, m.step.2.flat) := by
    rw [m.step_of_draw h]
    exact Checked.bind_of_ok (draw_eq (m.goTo (m.counter + 2)) x y rows) rfl
  rw [← h] at hdraw
  exact Checked.bind_of_ok (fetch_eq m) (Checked.bind_of_ok (decode_eq m.fetch) hdraw)

namespace Machine

section Draw

variable {m : Machine} {x y : Register} {rows : Fin 16}

/-- A cell is turned over where the sprite covers it. -/
theorem pixel_step_of_draw (h : m.nextInstruction = .draw x y rows) {a b : Nat} (ha : a < 64)
    (hb : b < 32) :
    m.step.2.screen.pixel a b = (m.screen.pixel a b ^^ decide (m.Covers x y rows a b)) := by
  have hrows : (rows : Nat) ≤ 32 := by omega
  rw [m.step_of_draw h, ← m.pixel_spriteOverlay x y hrows ha hb]
  exact Screen.pixel_xor _ _ a b

/-- The flag tells whether the sprite covered a set cell. -/
theorem flag_step_of_draw (h : m.nextInstruction = .draw x y rows) :
    m.step.2.registers.get flagRegister = if m.Hits x y rows then 1 else 0 := by
  have hrows : (rows : Nat) ≤ 32 := by omega
  have hflag : m.step.2.registers.get flagRegister =
      if m.screen.meets (m.spriteOverlay x y rows) then 1 else 0 := by
    rw [m.step_of_draw h]
    exact Vector.get_put_self _ _ _
  have hhits : m.screen.meets (m.spriteOverlay x y rows) = true ↔ m.Hits x y rows :=
    m.meets_spriteOverlay m.screen x y hrows
  simp only [hflag, hhits]

/-- A cell that is zero or one is turned over by an exclusive or with one. -/
theorem cells_step_of_draw (h : m.nextInstruction = .draw x y rows) (d : Fin 2048) :
    m.step.2.flat.cells.get d =
      m.flat.cells.get d ^^^ if m.Covers x y rows (d % 64) (d / 64) then 1 else 0 := by
  have hbefore : m.flat.cells.get d = if m.screen.pixel (d % 64) (d / 64) then 1 else 0 :=
    m.screen.get_bytes d
  have hafter : m.step.2.flat.cells.get d =
      if m.step.2.screen.pixel (d % 64) (d / 64) then 1 else 0 :=
    m.step.2.screen.get_bytes d
  rw [hafter, hbefore, pixel_step_of_draw h (by omega) (by omega)]
  by_cases hcovers : m.Covers x y rows (d % 64) (d / 64)
  · cases m.screen.pixel (d % 64) (d / 64) <;> simp [hcovers]
  · cases m.screen.pixel (d % 64) (d / 64) <;> simp [hcovers]

end Draw

/-- A drawing instruction turns over the cells that its sprite covers, and the flag tells whether
one of them was set. The screen counts as drawn on, the program goes on behind the instruction,
and nothing else is changed. Turning over byte after byte in a table of cells that are zero or
one leads to the same cells. -/
theorem draw_covers {m : Machine} {x y : Register} {rows : Fin 16}
    (h : m.nextInstruction = .draw x y rows) :
    let n := m.step.2
    m.step.1 = .ok .draw ∧
    (∀ a < 64, ∀ b < 32,
      n.screen.pixel a b = (m.screen.pixel a b ^^ decide (m.Covers x y rows a b))) ∧
    n.registers.get flagRegister = (if m.Hits x y rows then 1 else 0) ∧
    (∀ r : Register, r ≠ flagRegister → n.registers.get r = m.registers.get r) ∧
    n = { m with
      counter := m.counter + 2
      screen := n.screen
      registers := n.registers
      dirty := true } ∧
    m.flat.step = .ok (.ok .draw, n.flat) ∧
    ∀ d : Fin 2048, n.flat.cells.get d =
      m.flat.cells.get d ^^^ if m.Covers x y rows (d % 64) (d / 64) then 1 else 0 := by
  intro n
  have hstep := m.step_of_draw h
  have hn : n = (m.goTo (m.counter + 2)).drawOverlay (m.spriteOverlay x y rows) :=
    congrArg Prod.snd hstep
  refine ⟨congrArg Prod.fst hstep, fun a ha b hb => pixel_step_of_draw h ha hb,
    flag_step_of_draw h, ?_, ?_, Flat.step_of_draw h, cells_step_of_draw h⟩
  · intro r hr
    rw [hn]
    exact Vector.get_put_of_ne _ hr _
  · rw [hn]
    rfl

/-- A machine with a sprite across the end of memory. The first row is already on the screen, around
its lower right corner, and the next instruction draws all three there, with the flag for the
column. -/
def atCorner : Machine :=
  { new .unset (Vector.replicate 8 0) with
    memory := (Memory.zero.writeBlock 0x200 [0xDF, 0x13]).writeBlock 0xFFE [0xFF, 0xC3, 0x81]
    registers := ((Vector.replicate 16 0).put 1 31).put flagRegister 62
    index := 0xFFE
    screen := .overlay [0xFF] 62 31 }

/-- The first row is erased, which the flag tells, and the others come around both edges. -/
theorem draw_covers_atCorner :
    atCorner.nextInstruction = .draw flagRegister 1 3 ∧ atCorner.Hits flagRegister 1 3 ∧
      atCorner.step.2.registers.get flagRegister = 1 ∧
      atCorner.step.2.screen.pixel 2 31 = false ∧ atCorner.step.2.screen.pixel 5 1 = true := by
  have hnext : atCorner.nextInstruction = .draw flagRegister 1 3 := by decide +kernel
  obtain ⟨-, hpixel, hflag, -⟩ := draw_covers hnext
  have hhits : atCorner.Hits flagRegister 1 3 :=
    ⟨2, by decide, 31, by decide, by decide +kernel, by decide +kernel⟩
  refine ⟨hnext, hhits, hflag.trans (if_pos hhits), ?_, ?_⟩
  · exact (hpixel 2 (by decide) 31 (by decide)).trans (by decide +kernel)
  · exact (hpixel 5 (by decide) 1 (by decide)).trans (by decide +kernel)

end Machine

end ChipEight
