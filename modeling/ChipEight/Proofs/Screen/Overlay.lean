import ChipEight.Screen

/-!
# Cells of an overlay

Where the cells of a sprite come to lie: row `r` and column `c` of a sprite that is placed
at a column and a row of the screen are found at the sums, each wrapped around its own edge.
A sprite is no higher than the screen, so no two of its cells meet.
-/

namespace ChipEight.Screen

/-- Whether a byte has a cell at a column, the leftmost column being its highest bit. -/
def hasCell (cells : UInt8) (column : Nat) : Bool := cells.toBitVec.getMsbD column

theorem hasCell_of_le {cells : UInt8} {column : Nat} (h : 8 ≤ column) :
    hasCell cells column = false :=
  BitVec.getMsbD_of_ge _ _ h

theorem lt_of_hasCell {cells : UInt8} {column : Nat} (h : hasCell cells column = true) :
    column < 8 :=
  Nat.lt_of_not_le fun hle => by cases (hasCell_of_le hle).symm.trans h

/-- The column of the sprite that a column of the screen shows. -/
theorem getMsbD_rowMask (column : Nat) (cells : UInt8) {x : Nat} (hx : x < 64) :
    (rowMask column cells).getMsbD x = hasCell cells ((x + (64 - column % 64)) % 64) := by
  have hplace : (if x < column % 64 then (64 + x - column % 64) % 64 else x - column % 64) =
      (x + (64 - column % 64)) % 64 := by
    split <;> omega
  rw [rowMask, BitVec.getMsbD_rotateRight, decide_eq_true hx, Bool.true_and, ← apply_ite, hplace,
    BitVec.getMsbD_append]
  split
  · next hle =>
    rw [hasCell_of_le hle]
    exact BitVec.getMsbD_zero
  · rfl

/-- An overlay has the cells of its sprite, moved and wrapped around the edges, and no others. -/
theorem pixel_overlay {sprite : List UInt8} (hrows : sprite.length ≤ 32) (column row : Nat)
    {x y : Nat} (hx : x < 64) (hy : y < 32) :
    (overlay sprite column row).pixel x y = true ↔
      ∃ r c, ∃ h : r < sprite.length, hasCell sprite[r] c = true ∧
        x = (column + c) % 64 ∧ y = (row + r) % 32 := by
  have hpixel : (overlay sprite column row).pixel x y =
      sprite[(y + (32 - row % 32)) % 32]?.any
        fun cells => hasCell cells ((x + (64 - column % 64)) % 64) := by
    simp only [pixel, overlay, Vector.getElem?_ofFn, dif_pos hy]
    cases sprite[(y + (32 - row % 32)) % 32]? with
    | some cells => exact getMsbD_rowMask column cells hx
    | none => exact BitVec.getMsbD_zero
  rw [hpixel, Option.any_eq_true]
  constructor
  · rintro ⟨cells, hcells, hcell⟩
    obtain ⟨hr, rfl⟩ := List.getElem?_eq_some_iff.mp hcells
    refine ⟨_, _, hr, hcell, ?_, ?_⟩ <;> omega
  · rintro ⟨r, c, hr, hcell, rfl, rfl⟩
    have hc := lt_of_hasCell hcell
    have hrow : ((row + r) % 32 + (32 - row % 32)) % 32 = r := by omega
    have hcolumn : ((column + c) % 64 + (64 - column % 64)) % 64 = c := by omega
    rw [hrow, hcolumn]
    exact ⟨sprite[r], List.getElem?_eq_getElem hr, hcell⟩

/-- There is no cell outside the screen. -/
theorem pixel_eq_false (s : Screen) {x y : Nat} (h : 64 ≤ x ∨ 32 ≤ y) : s.pixel x y = false := by
  unfold pixel
  split
  · next row hrow =>
    have hy : y < 32 := (Vector.getElem?_eq_some_iff.mp hrow).1
    exact BitVec.getMsbD_of_ge _ _ (h.resolve_right (Nat.not_le_of_lt hy))
  · rfl

theorem lt_of_pixel (s : Screen) {x y : Nat} (h : s.pixel x y = true) : x < 64 ∧ y < 32 := by
  refine ⟨Nat.lt_of_not_le fun hx => ?_, Nat.lt_of_not_le fun hy => ?_⟩
  · cases (s.pixel_eq_false (Or.inl hx)).symm.trans h
  · cases (s.pixel_eq_false (Or.inr hy)).symm.trans h

/-- Some cell is set where a row is not empty. -/
theorem ne_zero_iff_getMsbD (row : BitVec 64) : row ≠ 0 ↔ ∃ x, row.getMsbD x = true := by
  constructor
  · intro hne
    refine Classical.byContradiction fun hnone =>
      hne (BitVec.eq_of_getMsbD_eq fun x _ => ?_)
    have hx : row.getMsbD x = false := eq_false_of_ne_true fun hx => hnone ⟨x, hx⟩
    exact hx.trans BitVec.getMsbD_zero.symm
  · rintro ⟨x, hx⟩ rfl
    cases hx.symm.trans BitVec.getMsbD_zero

/-- Two screens meet where both have a cell. -/
theorem meets_iff (s t : Screen) :
    s.meets t = true ↔ ∃ x y, s.pixel x y = true ∧ t.pixel x y = true := by
  have hrow (y : Nat) (hy : y < 32) :
      (s.rows[y] &&& t.rows[y] != 0) = true ↔
        ∃ x, s.pixel x y = true ∧ t.pixel x y = true := by
    rw [bne_iff_ne, ne_zero_iff_getMsbD]
    simp only [pixel, Vector.getElem?_eq_getElem hy, BitVec.getMsbD_and, Bool.and_eq_true]
  simp only [meets, Vector.any_eq_true, Vector.getElem_zipWith]
  constructor
  · rintro ⟨y, hy, hmeets⟩
    obtain ⟨x, hx⟩ := (hrow y hy).mp hmeets
    exact ⟨x, y, hx⟩
  · rintro ⟨x, y, hs, ht⟩
    have hy := (s.lt_of_pixel hs).2
    exact ⟨y, hy, (hrow y hy).mpr ⟨x, hs, ht⟩⟩

end ChipEight.Screen
