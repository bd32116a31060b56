import ChipEight.Proofs.Flat.Memory
import ChipEight.Proofs.Screen.Overlay
import Mathlib.Data.List.Nodup

/-!
# Drawing, cell by cell

A flat machine draws a sprite by turning over one cell after the other. No two cells of a
sprite lie at the same place, so each of them is turned over once, and the cells afterwards
are those of the exclusive or with the overlay; a set cell was hit exactly where the screen
and the overlay meet.
-/

namespace ChipEight

open Checked

namespace Screen

/-- Where a cell of a sprite lies in the table of cells. -/
def spot (x y r c : Nat) : Fin 2048 := ⟨(x + c) % 64 + (y + r) % 32 * 64, by omega⟩

/-- Where the cells of a row of a sprite lie. -/
def rowSpots (cells : UInt8) (x y r : Nat) : List (Fin 2048) :=
  ((List.range 8).filter (hasCell cells)).map (spot x y r)

/-- Where the cells of a sprite lie, row by row. -/
def spots (rowAt : Nat → UInt8) (rows x y : Nat) : List (Fin 2048) :=
  (List.range rows).flatMap fun r => rowSpots (rowAt r) x y r

variable {rowAt : Nat → UInt8} {rows x y : Nat} {d : Fin 2048}

theorem mem_rowSpots {cells : UInt8} {r : Nat} :
    d ∈ rowSpots cells x y r ↔ ∃ c < 8, hasCell cells c = true ∧ spot x y r c = d := by
  simp only [rowSpots, List.mem_map, List.mem_filter, List.mem_range, and_assoc]

theorem mem_spots :
    d ∈ spots rowAt rows x y ↔
      ∃ r < rows, ∃ c < 8, hasCell (rowAt r) c = true ∧ spot x y r c = d := by
  simp only [spots, List.mem_flatMap, List.mem_range, mem_rowSpots]

/-- Cells of a sprite in different rows or columns lie at different places. -/
theorem spot_injective {r r' c c' : Nat} (hr : r < 32) (hr' : r' < 32) (hc : c < 8) (hc' : c' < 8)
    (h : spot x y r c = spot x y r' c') : r = r' ∧ c = c' := by
  have hplace : (x + c) % 64 + (y + r) % 32 * 64 = (x + c') % 64 + (y + r') % 32 * 64 :=
    congrArg Fin.val h
  omega

/-- No two cells of a sprite lie at the same place. -/
theorem nodup_spots (hrows : rows ≤ 32) : (spots rowAt rows x y).Nodup := by
  refine List.nodup_flatMap.mpr ⟨fun r hr => ?_, ?_⟩
  · have hr : r < 32 := Nat.lt_of_lt_of_le (List.mem_range.mp hr) hrows
    refine List.Nodup.map_on (fun c hc c' hc' h => ?_) (List.nodup_range.filter _)
    have hc : c < 8 := List.mem_range.mp (List.mem_filter.mp hc).1
    have hc' : c' < 8 := List.mem_range.mp (List.mem_filter.mp hc').1
    exact (spot_injective hr hr hc hc' h).2
  · refine List.nodup_range.imp_of_mem fun {r r'} hr hr' hne d hd hd' => hne ?_
    have hr : r < 32 := Nat.lt_of_lt_of_le (List.mem_range.mp hr) hrows
    have hr' : r' < 32 := Nat.lt_of_lt_of_le (List.mem_range.mp hr') hrows
    obtain ⟨c, hc, -, rfl⟩ := mem_rowSpots.mp hd
    obtain ⟨c', hc', -, h⟩ := mem_rowSpots.mp hd'
    exact (spot_injective hr' hr hc' hc h).1.symm

/-- The cells of a sprite are those of its overlay. -/
theorem mem_spots_iff_overlay (memory : Memory) (place : Nat) (hrows : rows ≤ 32)
    (d : Fin 2048) :
    d ∈ spots (fun r => memory.read (place + r)) rows x y ↔
      (overlay (memory.readBlock place rows) x y).pixel (d % 64) (d / 64) = true := by
  have hlen := memory.length_readBlock place rows
  have hrow (r : Nat) (h : r < (memory.readBlock place rows).length) :
      (memory.readBlock place rows)[r] = memory.read (place + r) :=
    memory.getElem_readBlock place rows h
  rw [mem_spots, pixel_overlay (by omega) x y (by omega) (by omega)]
  constructor
  · rintro ⟨r, hr, c, hc, hcell, rfl⟩
    refine ⟨r, c, by omega, (hrow r (by omega)).symm ▸ hcell, ?_, ?_⟩
    · change ((x + c) % 64 + (y + r) % 32 * 64) % 64 = _
      omega
    · change ((x + c) % 64 + (y + r) % 32 * 64) / 64 = _
      omega
  · rintro ⟨r, c, hr, hcell, hx, hy⟩
    refine ⟨r, by omega, c, lt_of_hasCell hcell, (hrow r hr) ▸ hcell, Fin.ext ?_⟩
    change (x + c) % 64 + (y + r) % 32 * 64 = _
    omega

theorem get_bytes (s : Screen) (d : Fin 2048) :
    s.bytes.get d = if s.pixel (d % 64) (d / 64) then 1 else 0 := by
  rw [Vector.get_eq_entry, bytes, Vector.getElem_ofFn]

theorem get_bytes_eq_one_iff (s : Screen) (d : Fin 2048) :
    s.bytes.get d = 1 ↔ s.pixel (d % 64) (d / 64) = true := by
  rw [get_bytes]
  cases s.pixel (d % 64) (d / 64) <;> decide

end Screen

namespace Flat

open Screen (spot rowSpots spots hasCell)

/-- Turn one cell over, and note whether it was set. -/
def turn (drawn : Bool × Cells) (d : Fin 2048) : Bool × Cells :=
  (drawn.1 || drawn.2.get d == 1, drawn.2.put d (drawn.2.get d ^^^ 1))

/-- Turning over cells of which no two are the same turns each of them over once. -/
theorem foldl_turn {places : List (Fin 2048)} (h : places.Nodup) (drawn : Bool × Cells) :
    ((places.foldl turn drawn).1 = true ↔
        drawn.1 = true ∨ ∃ d ∈ places, drawn.2.get d = 1) ∧
      (∀ d ∈ places, (places.foldl turn drawn).2.get d = drawn.2.get d ^^^ 1) ∧
      ∀ d ∉ places, (places.foldl turn drawn).2.get d = drawn.2.get d := by
  induction places generalizing drawn with
  | nil => simp
  | cons first rest ih =>
    obtain ⟨hfirst, hrest⟩ := List.nodup_cons.mp h
    obtain ⟨hhit, hturned, hkept⟩ := ih hrest (turn drawn first)
    have hother (d : Fin 2048) (hd : d ≠ first) : (turn drawn first).2.get d = drawn.2.get d :=
      Vector.get_put_of_ne _ hd _
    have hsame : (∃ d ∈ rest, (turn drawn first).2.get d = 1) ↔
        ∃ d ∈ rest, drawn.2.get d = 1 := by
      refine exists_congr fun d => and_congr_right fun hd => ?_
      rw [hother d fun heq => hfirst (heq ▸ hd)]
    refine ⟨?_, fun d hd => ?_, fun d hd => ?_⟩
    · rw [List.foldl_cons, hhit, hsame]
      simp only [turn, Bool.or_eq_true, beq_iff_eq, List.mem_cons, exists_eq_or_imp, or_assoc]
    · rw [List.foldl_cons]
      rcases List.mem_cons.mp hd with rfl | hd
      · rw [hkept d hfirst]
        exact Vector.get_put_self _ _ _
      · rw [hturned d hd, hother d fun heq => hfirst (heq ▸ hd)]
    · rw [List.foldl_cons, hkept d fun hmem => hd (List.mem_cons_of_mem _ hmem),
        hother d fun heq => hd (heq ▸ List.mem_cons_self)]

/-- Whether a row has a cell is seen by moving the cell's bit to the end. -/
theorem shifted_eq_zero_iff (row : UInt8) {c : Nat} (hc : c < 8) :
    (row >>> UInt8.ofNat (7 - c)) &&& 1 = 0 ↔ hasCell row c = false := by
  have hshift : (UInt8.ofNat (7 - c)).toNat % 8 = 7 - c := by
    rw [UInt8.toNat_ofNat']
    omega
  have hlast : ((row >>> UInt8.ofNat (7 - c)) &&& 1).toNat = row.toNat / 2 ^ (7 - c) % 2 := by
    rw [UInt8.toNat_and, UInt8.toNat_shiftRight, hshift, Nat.shiftRight_eq_div_pow]
    exact Nat.and_one_is_mod _
  rw [← UInt8.toNat_inj, hlast, hasCell, BitVec.getMsbD_eq_getLsbD, decide_eq_true hc,
    Bool.true_and, ← BitVec.testBit_toNat, UInt8.toNat_toBitVec, Nat.testBit_eq_decide_div_mod_eq,
    decide_eq_false_iff_not]
  change _ = 0 ↔ ¬ row.toNat / 2 ^ (7 - c) % 2 = 1
  omega

/-- Drawing one cell succeeds, and turns it over if the row has it. -/
theorem drawCell_eq (row : UInt8) {x y r c : Nat} (hx : x < 256) (hy : y < 256) (hr : r < 16)
    (hc : c < 8) (drawn : Bool × Cells) :
    drawCell row x y r drawn c =
      .ok (if hasCell row c then turn drawn (spot x y r c) else drawn) := by
  rw [drawCell, difference_of_le (by omega), ok_bind, shiftRight_of_lt row (by omega), ok_bind]
  cases hcell : hasCell row c with
  | false => exact if_pos ((shifted_eq_zero_iff row hc).mpr hcell)
  | true =>
    have hdrawn : ¬ (row >>> UInt8.ofNat (7 - c)) &&& 1 = 0 := by
      rw [shifted_eq_zero_iff row hc, hcell]
      decide
    have hplace : (x + c) % 64 + (y + r) % 32 * 64 < 2048 := (spot x y r c).isLt
    rw [if_neg hdrawn]
    exact bind_of_ok (fit64_of_lt (by omega)) (bind_of_ok (fit64_of_lt (by omega))
      (bind_of_ok (fit64_of_lt (by omega)) (bind_of_ok (fit64_of_lt (by omega))
        (bind_of_ok (entry_of_lt _ hplace) (bind_of_ok (replace_of_lt _ hplace _) rfl)))))

/-- Drawing one row succeeds, and turns its cells over. -/
theorem drawRow_eq (m : Machine) {x y r : Nat} (hx : x < 256) (hy : y < 256) (hr : r < 16)
    (drawn : Bool × Cells) :
    m.flat.drawRow x y drawn r =
      .ok ((rowSpots (m.memory.read (m.index.toNat + r)) x y r).foldl turn drawn) := by
  have hindex : m.flat.index.toNat < 65536 := m.index.toNat_lt
  rw [drawRow, rowSpots, List.foldl_map, List.foldl_filter]
  refine bind_of_ok (fit64_of_lt (by omega)) (bind_of_ok (readByte_eq m.memory _) ?_)
  exact foldlM_of_ok id _
    (fun drawn c hc => drawCell_eq _ hx hy hr (List.mem_range.mp hc) drawn) drawn

/-- The cells with a sprite turned over are those of the exclusive or with its overlay, and a set
cell was turned over where the two screens meet. -/
theorem foldl_turn_spots (s : Screen) (memory : Memory) (place : Nat) {rows x y : Nat}
    (hrows : rows ≤ 32) :
    (spots (fun r => memory.read (place + r)) rows x y).foldl turn (false, s.bytes) =
      (s.meets (.overlay (memory.readBlock place rows) x y),
        (s.xor (.overlay (memory.readBlock place rows) x y)).bytes) := by
  obtain ⟨hhit, hturned, hkept⟩ := foldl_turn (Screen.nodup_spots hrows) (false, s.bytes)
  refine Prod.ext (Bool.eq_iff_iff.mpr ?_) (Vector.ext fun d hd => ?_)
  · rw [hhit, Screen.meets_iff]
    constructor
    · rintro (hfalse | ⟨d, hd, hset⟩)
      · cases hfalse
      · exact ⟨_, _, (s.get_bytes_eq_one_iff d).mp hset,
          (Screen.mem_spots_iff_overlay memory place hrows d).mp hd⟩
    · rintro ⟨a, b, hset, ho⟩
      obtain ⟨ha, hb⟩ := s.lt_of_pixel hset
      have hcolumn : (a + b * 64) % 64 = a := by omega
      have hrow : (a + b * 64) / 64 = b := by omega
      refine Or.inr ⟨⟨a + b * 64, by omega⟩, ?_, ?_⟩
      · rw [Screen.mem_spots_iff_overlay memory place hrows, hcolumn, hrow]
        exact ho
      · rw [Screen.get_bytes_eq_one_iff, hcolumn, hrow]
        exact hset
  · have hmem := Screen.mem_spots_iff_overlay memory place hrows ⟨d, hd⟩ (x := x) (y := y)
    refine Eq.trans ?_ (Screen.get_bytes _ ⟨d, hd⟩).symm
    rw [Screen.pixel_xor]
    cases ho : (Screen.overlay (memory.readBlock place rows) x y).pixel (d % 64) (d / 64) with
    | true =>
      refine (hturned ⟨d, hd⟩ (hmem.mpr ho)).trans ?_
      rw [Screen.get_bytes]
      cases s.pixel (d % 64) (d / 64) <;> rfl
    | false =>
      refine (hkept ⟨d, hd⟩ fun h => ?_).trans ?_
      · cases ho.symm.trans (hmem.mp h)
      · rw [Screen.get_bytes, Bool.xor_false]

/-- Drawing succeeds, and draws the overlay of the sprite. -/
theorem draw_eq (m : Machine) (x y : Register) (rows : Fin 16) :
    m.flat.draw x y rows = .ok (m.drawOverlay (m.spriteOverlay x y rows)).flat := by
  have hrows := rows.isLt
  have hx := (m.registers.get x).toNat_lt
  have hy := (m.registers.get y).toNat_lt
  have hloop : (List.range rows).foldlM
      (m.flat.drawRow (m.registers.get x).toNat (m.registers.get y).toNat)
      (false, m.screen.bytes) = .ok (m.screen.meets (m.spriteOverlay x y rows),
        (m.screen.xor (m.spriteOverlay x y rows)).bytes) := by
    refine (foldlM_of_ok id _ (fun drawn r hr => drawRow_eq m hx hy ?_ drawn) _).trans ?_
    · have hr := List.mem_range.mp hr
      omega
    · rw [← List.foldl_flatMap]
      exact congrArg Except.ok (foldl_turn_spots m.screen m.memory _ (by omega))
  rw [draw]
  exact bind_of_ok hloop rfl

end Flat

end ChipEight
