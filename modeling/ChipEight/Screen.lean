/-!
# Screen

Sixty-four by thirty-two cells, each set or not. A row is a bit vector whose leftmost
cell is the highest bit. A sprite is a list of bytes, a row of eight cells each; placed
on the screen it wraps around every edge and becomes a screen of its own, its `overlay`.
Drawing is the exclusive or with the overlay, and a collision is a cell that both have.
-/

namespace ChipEight

/-- What a screen shows. -/
structure Screen where
  /-- The rows from top to bottom, a bit for each cell, the leftmost cell first. -/
  rows : Vector (BitVec 64) 32
  deriving DecidableEq

namespace Screen

/-- The number of cells in a row. -/
def width : Nat := 64

/-- No cell is set. -/
def blank : Screen := ⟨Vector.replicate 32 0⟩

/-- Whether the cell in a column and a row is set; there is none outside the screen. -/
def pixel (s : Screen) (x y : Nat) : Bool :=
  match s.rows[y]? with
  | some row => row.getMsbD x
  | none => false

/-- The cells that exactly one of two screens has. -/
def xor (s t : Screen) : Screen := ⟨Vector.zipWith (· ^^^ ·) s.rows t.rows⟩

/-- Whether two screens have a cell in common. -/
def meets (s t : Screen) : Bool := (Vector.zipWith (· &&& ·) s.rows t.rows).any (· != 0)

/-- Eight cells in a row, the leftmost in the given column, wrapped around the edge. -/
def rowMask (column : Nat) (cells : UInt8) : BitVec 64 :=
  (cells.toBitVec ++ (0 : BitVec 56)).rotateRight column

/-- A sprite with its upper left corner at a place, wrapped around the edges. -/
def overlay (sprite : List UInt8) (column row : Nat) : Screen :=
  ⟨Vector.ofFn fun y : Fin 32 =>
    match sprite[(y.val + (32 - row % 32)) % 32]? with
    | some cells => rowMask column cells
    | none => 0⟩

/-- The cells of a row from left to right. -/
def cellsOfRow (row : BitVec 64) : List Bool := (List.range width).map row.getMsbD

/-- All cells, row by row. -/
def cells (s : Screen) : List Bool := s.rows.toList.flatMap cellsOfRow

/-- The number of set cells. -/
def litCount (s : Screen) : Nat := s.cells.count true

/-- The screen as text: a line for each row, one character for set cells and one for the others. -/
def render (s : Screen) (on off : Char) : List Char :=
  s.rows.toList.flatMap fun row =>
    (cellsOfRow row).map (fun set => if set then on else off) ++ ['\n']

/-- The screen drawn with number signs and dots. -/
def picture (s : Screen) : List Char := s.render '#' '.'

/-- A name for the screen with its picture below. -/
def describe (s : Screen) : List Char := "DisplaySnapshot\n".toList ++ s.picture

/-- Two screens with the same cells are equal. -/
theorem ext_pixel {s t : Screen} (h : ∀ x y, s.pixel x y = t.pixel x y) : s = t := by
  obtain ⟨s⟩ := s
  obtain ⟨t⟩ := t
  congr 1
  apply Vector.ext
  intro y hy
  apply BitVec.eq_of_getMsbD_eq
  intro x _
  simpa [pixel, Vector.getElem?_eq_getElem hy] using h x y

@[simp] theorem pixel_blank (x y : Nat) : blank.pixel x y = false := by
  by_cases hy : y < 32 <;> simp [pixel, blank, hy]

/-- The exclusive or is taken cell by cell. -/
@[simp] theorem pixel_xor (s t : Screen) (x y : Nat) :
    (s.xor t).pixel x y = (s.pixel x y ^^ t.pixel x y) := by
  by_cases hy : y < 32
  · simp [pixel, xor, hy]
  · simp [pixel, hy]

end Screen

end ChipEight
