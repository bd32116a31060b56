import ChipEight.Proofs.Flat.Refinement

/-!
# Text of a screen

A screen is written as thirty-two lines of sixty-four characters, and the character of a cell stands
where the cell's row and column say: `Shows` says so of any text. So a text tells all cells,
whether they are the bits of row vectors or the bytes of one table that is cut into rows. Bytes
could differ and look alike, if they were neither zero nor one, but no history leaves such bytes.
-/

namespace ChipEight

namespace Screen

/-- A text shows cells, set ones and others as one of two characters. -/
structure Shows (text : List Char) (set : Nat → Nat → Bool) (on off : Char) : Prop where
  /-- There are thirty-two lines of sixty-four characters and a line end. -/
  length : text.length = 32 * 65
  /-- The character of a cell stands in the line of its row, as far from the left as its column. -/
  cell : ∀ x < 64, ∀ y < 32, text[65 * y + x]? = some (if set x y then on else off)
  /-- A line end stands behind the cells of each row. -/
  lineEnd : ∀ y < 32, text[65 * y + 64]? = some '\n'

variable {α : Type} {on off : Char}

/-- Where all pieces are of one length, an entry is found by the number of its piece. -/
theorem getElem?_flatMap_of_length {β : Type} {f : α → List β} {length : Nat} {pieces : List α}
    (h : ∀ piece ∈ pieces, (f piece).length = length) (i : Nat) {j : Nat} (hj : j < length) :
    (pieces.flatMap f)[length * i + j]? = pieces[i]?.bind fun piece => (f piece)[j]? := by
  induction pieces generalizing i with
  | nil => rfl
  | cons piece rest ih =>
    obtain ⟨hpiece, hrest⟩ := List.forall_mem_cons.mp h
    rw [List.flatMap_cons]
    cases i with
    | zero =>
      rw [Nat.mul_zero, Nat.zero_add, List.getElem?_append_left (by omega)]
      rfl
    | succ i =>
      have hbehind : length * (i + 1) + j - (f piece).length = length * i + j := by
        rw [Nat.mul_succ]
        omega
      have hlong : (f piece).length ≤ length * (i + 1) + j := by
        rw [Nat.mul_succ]
        omega
      rw [List.getElem?_append_right hlong, hbehind, ih hrest, List.getElem?_cons_succ]

/-- Lines that show a row of cells each show all of them. -/
theorem shows_lines {rows : List α} {line : α → List Char} {cell : α → Nat → Bool}
    (hrows : rows.length = 32)
    (hline : ∀ row ∈ rows,
      line row = (List.range 64).map (fun x => if cell row x then on else off) ++ ['\n']) :
    Shows (rows.flatMap line) (fun x y => rows[y]?.any (cell · x)) on off := by
  have hlength : ∀ row ∈ rows, (line row).length = 65 := by
    intro row hrow
    simp [hline row hrow]
  constructor
  · rw [List.length_flatMap, List.map_congr_left hlength, List.map_const', List.sum_replicate_nat,
      hrows]
  · intro x hx y hy
    have hy' : y < rows.length := by omega
    have hx' : x < 65 := by omega
    rw [getElem?_flatMap_of_length hlength y hx', List.getElem?_eq_getElem hy']
    simp [hline _ (List.getElem_mem hy'), hx, List.getElem?_append]
  · intro y hy
    have hy' : y < rows.length := by omega
    rw [getElem?_flatMap_of_length hlength y (by omega), List.getElem?_eq_getElem hy']
    simp [hline _ (List.getElem_mem hy')]

namespace Shows

variable {text text' : List Char} {set set' : Nat → Nat → Bool}

/-- The same cells are shown by the same text. -/
theorem text_eq (h : Shows text set on off) (h' : Shows text' set' on off)
    (hset : ∀ x < 64, ∀ y < 32, set x y = set' x y) : text = text' := by
  have hlength := h.length
  have hlength' := h'.length
  apply List.ext_getElem?
  intro i
  by_cases hi : i < 32 * 65
  · have hy : i / 65 < 32 := by omega
    by_cases hx : i % 65 < 64
    · rw [← Nat.div_add_mod i 65, h.cell _ hx _ hy, h'.cell _ hx _ hy, hset _ hx _ hy]
    · have hend : i = 65 * (i / 65) + 64 := by omega
      rw [hend, h.lineEnd _ hy, h'.lineEnd _ hy]
  · rw [List.getElem?_eq_none (by omega), List.getElem?_eq_none (by omega)]

/-- What cells there are outside the screen makes no difference. -/
theorem congr (h : Shows text set on off) (hset : ∀ x < 64, ∀ y < 32, set x y = set' x y) :
    Shows text set' on off := by
  refine ⟨h.length, ?_, h.lineEnd⟩
  intro x hx y hy
  rw [h.cell x hx y hy, hset x hx y hy]

/-- Two different characters tell which cells are set. -/
theorem text_eq_iff (hne : on ≠ off) (h : Shows text set on off) (h' : Shows text' set' on off) :
    text = text' ↔ ∀ x < 64, ∀ y < 32, set x y = set' x y := by
  constructor
  · rintro rfl x hx y hy
    have hsame := (h.cell x hx y hy).symm.trans (h'.cell x hx y hy)
    cases hs : set x y <;> cases hs' : set' x y <;> simp_all
  · exact h.text_eq h'

end Shows

theorem shows_render (s : Screen) (on off : Char) : Shows (s.render on off) s.pixel on off := by
  have hpixel : s.pixel = fun x y => s.rows.toList[y]?.any (·.getMsbD x) := by
    funext x y
    rw [Vector.getElem?_toList, pixel]
    cases s.rows[y]? <;> rfl
  rw [hpixel]
  apply shows_lines
  · exact Vector.length_toList
  · intro row _
    simp [cellsOfRow, width, List.map_map, Function.comp_def]

/-- Screens with the same pixels inside the edges are equal. -/
theorem eq_of_pixel {s t : Screen} (h : ∀ x < 64, ∀ y < 32, s.pixel x y = t.pixel x y) :
    s = t := by
  apply ext_pixel
  intro x y
  by_cases hin : x < 64 ∧ y < 32
  · exact h x hin.1 y hin.2
  · have hout : 64 ≤ x ∨ 32 ≤ y := by omega
    rw [s.pixel_eq_false hout, t.pixel_eq_false hout]

theorem render_eq_iff (hne : on ≠ off) (s t : Screen) :
    s.render on off = t.render on off ↔ s = t := by
  rw [Shows.text_eq_iff hne (s.shows_render on off) (t.shows_render on off)]
  constructor
  · exact eq_of_pixel
  · rintro rfl x _ y _
    rfl

/-- Screens with the same bytes are equal. -/
theorem bytes_inj {s t : Screen} : s.bytes = t.bytes ↔ s = t := by
  constructor
  · intro h
    apply eq_of_pixel
    intro x hx y hy
    have hcolumn : (x + y * 64) % 64 = x := by omega
    have hrow : (x + y * 64) / 64 = y := by omega
    have hs := s.get_bytes_eq_one_iff ⟨x + y * 64, by omega⟩
    have ht := t.get_bytes_eq_one_iff ⟨x + y * 64, by omega⟩
    rw [h, hcolumn, hrow] at hs
    rw [hcolumn, hrow] at ht
    rw [Bool.eq_iff_iff, ← hs, ← ht]
  · rintro rfl
    rfl

end Screen

namespace Flat

open Checked Screen

/-- Whether the cell of a coordinate is set; there is none outside the screen. -/
def isSet (s : Flat) (x y : Nat) : Bool :=
  decide (x < 64 ∧ y < 32) && s.cells[x + y * 64]?.any (· != 0)

/-- Looking for a pixel succeeds everywhere. -/
theorem pixel_eq_isSet (s : Flat) (x y : Nat) : s.pixel x y = .ok (s.isSet x y) := by
  rw [pixel, isSet]
  split
  · next h =>
    have hlt : x + y * 64 < 2048 := by omega
    rw [decide_eq_true h, Vector.getElem?_eq_getElem hlt, Bool.true_and]
    exact bind_of_ok (fit64_of_lt (by omega)) (bind_of_ok (fit64_of_lt (by omega))
      (bind_of_ok (entry_of_lt s.cells hlt) rfl))
  · next h =>
    rw [decide_eq_false h, Bool.false_and]
    rfl

/-- A row begins sixty-four cells behind the one above it. -/
theorem getElem?_rowsOf (cells : List UInt8) (y : Nat) :
    (rowsOf cells)[y]? =
      if 64 * y < cells.length then some ((cells.drop (64 * y)).take 64) else none := by
  induction cells using rowsOf.induct generalizing y with
  | case1 => simp [rowsOf]
  | case2 cell rest ih =>
    rw [rowsOf]
    cases y with
    | zero => simp
    | succ y =>
      have hdrop : rest.drop 63 = (cell :: rest).drop 64 := rfl
      have hlast : 64 * y < (rest.drop 63).length ↔ 64 * (y + 1) < (cell :: rest).length := by
        rw [List.length_drop, List.length_cons]
        omega
      rw [List.getElem?_cons_succ, ih]
      simp only [hlast]
      rw [hdrop, List.drop_drop, Nat.mul_succ, Nat.add_comm 64]

/-- A table of cells has thirty-two rows, and each cell is found in its row. -/
theorem getElem?_rowsOf_cells (s : Flat) {y : Nat} (hy : y < 32) :
    ∃ row, (rowsOf s.cells.toList)[y]? = some row ∧ row.length = 64 ∧
      ∀ x < 64, row[x]? = s.cells[x + y * 64]? := by
  have hlength : s.cells.toList.length = 2048 := Vector.length_toList
  refine ⟨(s.cells.toList.drop (64 * y)).take 64, ?_, ?_, ?_⟩
  · rw [getElem?_rowsOf, if_pos (by omega)]
  · rw [List.length_take, List.length_drop]
    omega
  · intro x hx
    rw [List.getElem?_take_of_lt hx, List.getElem?_drop, Vector.getElem?_toList, Nat.add_comm,
      Nat.mul_comm]

theorem length_rowsOf_cells (s : Flat) : (rowsOf s.cells.toList).length = 32 := by
  have hlength : s.cells.toList.length = 2048 := Vector.length_toList
  obtain ⟨row, hrow, -⟩ := s.getElem?_rowsOf_cells (y := 31) (by decide)
  have hlast := (List.getElem?_eq_some_iff.mp hrow).1
  have hend : (rowsOf s.cells.toList)[32]? = none := by
    rw [getElem?_rowsOf, if_neg (by omega)]
  have hle := List.getElem?_eq_none_iff.mp hend
  omega

theorem shows_text (s : Flat) (on off : Char) : Shows (s.text on off) s.isSet on off := by
  have hlines : Shows (s.text on off)
      (fun x y => (rowsOf s.cells.toList)[y]?.any fun row => row[x]?.any (· != 0)) on off := by
    refine shows_lines s.length_rowsOf_cells ?_
    intro row hrow
    obtain ⟨y, hy⟩ := List.mem_iff_getElem?.mp hrow
    have hlt : y < 32 := s.length_rowsOf_cells ▸ (List.getElem?_eq_some_iff.mp hy).1
    obtain ⟨row', hrow', hlength, -⟩ := s.getElem?_rowsOf_cells hlt
    rw [hy, Option.some.injEq] at hrow'
    subst hrow'
    congr 1
    apply List.ext_getElem
    · simp [hlength]
    · intro x hx _
      have hx' : x < row.length := by simpa using hx
      simp [hx']
  refine hlines.congr ?_
  intro x hx y hy
  obtain ⟨row, hrow, -, hcell⟩ := s.getElem?_rowsOf_cells hy
  simp only [hrow, Option.any_some, hcell x hx, isSet, hx, hy, and_self, decide_true, Bool.true_and]

/-! ### Histories -/

/-- The states that histories lead to are those of machines, on bytes and words. -/
theorem reachable_iff {s : Flat} : s.Reachable ↔ ∃ m : Machine, m.Reachable ∧ s = m.flat := by
  constructor
  · rintro ⟨config, key, history, answers, h⟩
    rw [replay_new] at h
    cases h
    exact ⟨_, ⟨config, key, history, rfl⟩, rfl⟩
  · rintro ⟨_, ⟨config, key, history, rfl⟩, rfl⟩
    exact ⟨config, key, history, _, replay_new config key history⟩

/-- The text of bytes and words is that of the screen. -/
theorem text_flat (m : Machine) (on off : Char) :
    m.flat.text on off = m.screen.render on off := by
  refine (m.flat.shows_text on off).text_eq (m.screen.shows_render on off) ?_
  intro x _ y _
  have hsame := (m.flat.pixel_eq_isSet x y).symm.trans (pixel_eq m x y)
  exact Except.ok.inj hsame

/-- Where cells come from a history, different ones are told apart by their texts. -/
theorem text_eq_iff {on off : Char} (hne : on ≠ off) {s t : Flat} (hs : s.Reachable)
    (ht : t.Reachable) : s.text on off = t.text on off ↔ s.cells = t.cells := by
  obtain ⟨m, -, rfl⟩ := reachable_iff.mp hs
  obtain ⟨n, -, rfl⟩ := reachable_iff.mp ht
  rw [text_flat, text_flat, render_eq_iff hne]
  exact bytes_inj.symm

end Flat

open Screen (Shows)

/-- The text of a screen has a character for each pixel and a line end for each row, and no pixel is
set outside; so if the characters differ, the text tells the whole screen, and so does the picture.
Of cells in one table the same holds: text and pixels fit together for any bytes, and the text
tells the whole table where a history led to it. -/
theorem text_tells_cells :
    (∀ (s : Screen) (on off : Char), Shows (s.render on off) s.pixel on off) ∧
    (∀ (s : Screen) (x y : Nat), 64 ≤ x ∨ 32 ≤ y → s.pixel x y = false) ∧
    (∀ on off : Char, on ≠ off → ∀ s t : Screen, s.render on off = t.render on off ↔ s = t) ∧
    (∀ m n : Machine, m.screen.picture = n.screen.picture ↔ m.screen = n.screen) ∧
    (∀ (s : Flat) (on off : Char), Shows (s.text on off) s.isSet on off) ∧
    (∀ (s : Flat) (x y : Nat), s.pixel x y = .ok (s.isSet x y) ∧
      (64 ≤ x ∨ 32 ≤ y → s.isSet x y = false)) ∧
    (∀ on off : Char, on ≠ off → ∀ s t : Flat, s.Reachable → t.Reachable →
      (s.text on off = t.text on off ↔ s.cells = t.cells)) ∧
    ∀ (m : Machine) (on off : Char), m.flat.text on off = m.screen.render on off := by
  refine ⟨Screen.shows_render, fun s x y => s.pixel_eq_false, fun on off => Screen.render_eq_iff,
    fun m n => Screen.render_eq_iff (by decide) m.screen n.screen, Flat.shows_text,
    fun s x y => ⟨s.pixel_eq_isSet x y, ?_⟩, fun on off hne s t => Flat.text_eq_iff hne,
    Flat.text_flat⟩
  intro hout
  have hnot : ¬ (x < 64 ∧ y < 32) := by omega
  rw [Flat.isSet, decide_eq_false hnot, Bool.false_and]

/-- Some steps of a program that draws two cells around the lower right corner, and then draws them
again. -/
def Machine.cornered (steps : Nat) : Machine :=
  (new .unset (Vector.replicate 8 0)).behind
    [.loadProgram [0x60, 0x3E, 0x61, 0x1F, 0xA2, 0x00, 0xD0, 0x11, 0xD0, 0x11], .run steps]

/-- Drawing changes the text, and drawing again gives back the text of a blank screen. What would be
the cell behind the last column is no cell, though the next one in the table is set. -/
theorem text_tells_cells_cornered :
    '#' ≠ '.' ∧ (∀ steps, (Machine.cornered steps).flat.Reachable) ∧
      ((Machine.cornered 4).flat.text '#' '.')[65 * 31 + 63]? = some '#' ∧
      (Machine.cornered 4).screen.pixel 0 31 = true ∧
      (Machine.cornered 4).screen.pixel 64 30 = false ∧
      (Machine.cornered 4).flat.isSet 64 30 = false ∧
      (Machine.cornered 4).flat.text '#' '.' ≠ (Machine.cornered 3).flat.text '#' '.' ∧
      (Machine.cornered 5).flat.text '#' '.' = (Machine.cornered 3).flat.text '#' '.' := by
  have hne : '#' ≠ '.' := by decide
  have hreach (steps : Nat) : (Machine.cornered steps).flat.Reachable :=
    Flat.reachable_iff.mpr ⟨_, ⟨_, _, _, rfl⟩, rfl⟩
  have hthree : (Machine.cornered 3).screen = .blank := by decide +kernel
  have hfour : (Machine.cornered 4).screen.pixel 63 31 = true ∧
      (Machine.cornered 4).screen.pixel 0 31 = true := by decide +kernel
  have hfive : (Machine.cornered 5).screen = .blank := by decide +kernel
  obtain ⟨hshows, hout, -, -, -, hset, htables, htext⟩ := text_tells_cells
  refine ⟨hne, hreach, ?_, hfour.2, hout _ 64 30 (Or.inl (Nat.le_refl 64)),
    (hset _ 64 30).2 (Or.inl (Nat.le_refl 64)), ?_, ?_⟩
  · rw [htext, (hshows _ '#' '.').cell 63 (by decide) 31 (by decide), hfour.1]
    rfl
  · intro hsame
    have hcells := (htables _ _ hne _ _ (hreach 4) (hreach 3)).mp hsame
    have hscreen : (Machine.cornered 4).screen = .blank :=
      (Screen.bytes_inj.mp hcells).trans hthree
    rw [hscreen, Screen.pixel_blank] at hfour
    cases hfour.1
  · refine (htables _ _ hne _ _ (hreach 5) (hreach 3)).mpr ?_
    exact Screen.bytes_inj.mpr (hfive.trans hthree.symm)

end ChipEight
