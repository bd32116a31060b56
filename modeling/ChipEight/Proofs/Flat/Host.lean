import ChipEight.Proofs.Flat.Memory
import ChipEight.Proofs.Screen.Overlay

/-!
# Keys, pixels and dumps of the flat machine

What a host sets and sees. The bit of a key is one of the sixteen bits of the keys' word, the
cell of a coordinate on the screen is one of the cells, and a dump shows no place whose next
place is not in memory, whatever count it is asked for.
-/

namespace ChipEight

open Checked

namespace Flat

variable (m : Machine)

/-- The value of a key is less than the width of the keys' word. -/
theorem ofNat_key_lt (k : Key) : UInt8.ofNat k < 16 := by
  have all : ∀ k : Key, UInt8.ofNat k < 16 := by decide
  exact all k

/-- The word that has the bit of a key. -/
theorem bit_eq (k : Key) :
    bit (UInt8.ofNat k) = .ok (UInt16.ofBitVec (BitVec.twoPow 16 k)) := by
  have all : ∀ k : Key,
      (1 : UInt16) <<< (UInt8.ofNat k).toUInt16 = UInt16.ofBitVec (BitVec.twoPow 16 k) := by
    decide
  rw [bit_of_lt (ofNat_key_lt k), all k]

/-- A masked word is not empty where the key's bit is set. -/
theorem decide_pos_and_twoPow (mask : BitVec 16) (k : Key) :
    decide (0 < UInt16.ofBitVec mask &&& UInt16.ofBitVec (BitVec.twoPow 16 k)) =
      mask.getLsbD k := by
  have hpos : ∀ k : Key, 0 < UInt16.ofBitVec (BitVec.twoPow 16 k) := by decide
  rw [← UInt16.ofBitVec_and, BitVec.and_twoPow]
  cases mask.getLsbD k with
  | true => exact decide_eq_true (hpos k)
  | false => rfl

/-- Whether a key is down is one bit of the keys' word. -/
theorem isDown_eq (v : UInt8) : m.flat.isDown v = .ok (m.keypad.isDownAt v) := by
  by_cases hv : v < 16
  · have hlt : v.toNat < 16 := UInt8.lt_iff_toNat_lt.mp hv
    have hkey : UInt8.ofNat (⟨v.toNat, hlt⟩ : Key).val = v := UInt8.ofNat_toNat
    have hbit := bit_eq ⟨v.toNat, hlt⟩
    rw [hkey] at hbit
    rw [isDown, if_pos hv]
    refine bind_of_ok hbit (congrArg Except.ok ?_)
    rw [Keypad.isDownAt, Key.ofNat?, dif_pos hlt]
    exact decide_pos_and_twoPow m.keypad.mask ⟨v.toNat, hlt⟩
  · have hge : ¬ v.toNat < 16 := fun hlt => hv (UInt8.lt_iff_toNat_lt.mpr hlt)
    rw [isDown, if_neg hv, Keypad.isDownAt, Key.ofNat?, dif_neg hge]
    rfl

theorem setKey_eq (k : Key) (down : Bool) :
    m.flat.setKey (UInt8.ofNat k) down = .ok (m.setKey k down).flat := by
  rw [setKey, if_pos (ofNat_key_lt k)]
  refine bind_of_ok (bit_eq k) ?_
  cases down <;> rfl

/-- Asking for the key of a key's own value is asking for the key. -/
theorem isDownAt_ofNat (p : Keypad) (k : Key) : p.isDownAt (UInt8.ofNat k) = p.isDown k := by
  have all : ∀ k : Key, (UInt8.ofNat k).toNat = k.val := by decide
  rw [Keypad.isDownAt, all k, Key.ofNat?_val]

/-- The numbers of all keys. -/
theorem map_val_all : Key.all.map Fin.val = List.range 16 := by decide

/-- Some bit is set where the keys' word is not zero. -/
theorem pos_keys_iff : 0 < m.flat.keys ↔ ∃ k, m.keypad.isDown k = true := by
  constructor
  · intro hpos
    refine Classical.byContradiction fun hnone => ?_
    have hzero : m.keypad.mask = 0 := by
      refine BitVec.eq_of_getLsbD_eq fun k hk => ?_
      have hup : m.keypad.isDown ⟨k, hk⟩ = false :=
        eq_false_of_ne_true fun hdown => hnone ⟨_, hdown⟩
      exact hup.trans BitVec.getLsbD_zero.symm
    have hkeys : m.flat.keys = UInt16.ofBitVec m.keypad.mask := rfl
    rw [hkeys, hzero] at hpos
    cases hpos
  · rintro ⟨k, hk⟩
    refine UInt16.pos_iff_ne_zero.mpr fun hzero => ?_
    have hmask : m.keypad.mask = 0 := congrArg UInt16.toBitVec hzero
    rw [Keypad.isDown, hmask] at hk
    cases hk.symm.trans BitVec.getLsbD_zero

/-- The search for a key asks for every number of a key. -/
theorem firstKey_eq : m.flat.firstKey = .ok (m.keypad.first?.map Fin.val) := by
  by_cases hpos : 0 < m.flat.keys
  · rw [firstKey, if_pos hpos, findM?_of_ok fun k _ => isDown_eq m (UInt8.ofNat k), ← map_val_all,
      List.find?_map]
    have hasked : (fun k => m.keypad.isDownAt (UInt8.ofNat k)) ∘ Fin.val = m.keypad.isDown :=
      funext fun k => isDownAt_ofNat m.keypad k
    rw [hasked]
    rfl
  · have hup (k : Key) : m.keypad.isDown k = false :=
      eq_false_of_ne_true fun hdown => hpos ((pos_keys_iff m).mpr ⟨k, hdown⟩)
    have hnone : m.keypad.first? = none :=
      List.find?_eq_none.mpr fun k _ => Bool.not_eq_true _ ▸ hup k
    rw [firstKey, if_neg hpos, hnone]
    rfl

/-- A pixel on the screen is found among the cells. -/
theorem pixel_eq (x y : Nat) : m.flat.pixel x y = .ok (m.screen.pixel x y) := by
  by_cases h : x < 64 ∧ y < 32
  · obtain ⟨hx, hy⟩ := h
    have hlt : x + y * 64 < 2048 := by omega
    have hcolumn : (x + y * 64) % 64 = x := by omega
    have hrow : (x + y * 64) / 64 = y := by omega
    rw [pixel, if_pos ⟨hx, hy⟩]
    refine bind_of_ok (fit64_of_lt (by omega)) (bind_of_ok (fit64_of_lt (by omega))
      (bind_of_ok (entry_of_lt m.screen.bytes hlt) (congrArg Except.ok ?_)))
    rw [Screen.bytes, Vector.getElem_ofFn, hcolumn, hrow]
    cases m.screen.pixel x y <;> rfl
  · have hout : 64 ≤ x ∨ 32 ≤ y := by omega
    rw [pixel, if_neg h, m.screen.pixel_eq_false hout]
    rfl

/-- A line of a dump is made of two bytes in memory. -/
theorem dumpLine_eq (text : List Char) {place : Nat} (h : place + 1 < 4096) :
    m.flat.dumpLine text place = .ok (text ++ (m.dumpLine place ++ ['\n'])) := by
  have hplace : place % 4096 = place := Nat.mod_eq_of_lt (by omega)
  have hnext : (place + 1) % 4096 = place + 1 := Nat.mod_eq_of_lt h
  rw [dumpLine]
  refine bind_of_ok (entry_of_lt m.memory.bytes (by omega)) (bind_of_ok (fit64_of_lt (by omega))
    (bind_of_ok (entry_of_lt m.memory.bytes h) (congrArg Except.ok ?_)))
  simp only [Machine.dumpLine, Memory.read, hplace, hnext, List.append_assoc]

/-- The places of a dump are two bytes apart, whatever count it is asked for. -/
theorem dumpPlaces_eq (count : Nat) :
    Machine.dumpPlaces count =
      List.range' 0x200
        ((min (min (count + 0x200) (UInt64.size - 1)) (4096 - 1) - 0x200 + 1) / 2) 2 := by
  have hstop : min (min (count + 0x200) (UInt64.size - 1)) (4096 - 1) =
      min (count + Memory.programStart) 4095 := by
    unfold Memory.programStart UInt64.size
    omega
  rw [hstop]
  refine List.ext_getElem ?_ fun k _ _ => ?_
  · simp only [Machine.dumpPlaces, List.length_map, List.length_range, List.length_range',
      Memory.programStart]
  · simp only [Machine.dumpPlaces, List.getElem_map, List.getElem_range, List.getElem_range',
      Memory.programStart]

/-- A dump never shows a place without a next place. -/
theorem lt_of_mem_dumpPlaces {count place : Nat} (h : place ∈ Machine.dumpPlaces count) :
    place + 1 < 4096 := by
  simp only [Machine.dumpPlaces, Memory.programStart, List.mem_map, List.mem_range] at h
  obtain ⟨k, hk, rfl⟩ := h
  omega

theorem dumpMemory_eq (count : Nat) : m.flat.dumpMemory count = .ok (m.dumpMemory count) := by
  rw [dumpMemory, ← dumpPlaces_eq]
  refine (foldlM_of_ok id _
    (fun text place hplace => dumpLine_eq m text (lt_of_mem_dumpPlaces hplace)) _).trans ?_
  change Except.ok (List.foldl _ [] _) = _
  rw [List.foldl_append_eq_append, List.nil_append, ← List.flatMap_def, Machine.dumpMemory,
    Listing.unlines, List.flatMap_map]

theorem dumpKeys_eq : m.flat.dumpKeys = .ok m.dumpKeys := by
  have hup : m.keypad.down = [] ↔ ¬ 0 < m.flat.keys := by
    rw [pos_keys_iff, Keypad.down, List.filter_eq_nil_iff, not_exists]
    simp only [Key.all, List.mem_finRange, true_imp_iff]
  by_cases hpos : 0 < m.flat.keys
  · have hstep (text : List Char) (k : Nat) (_ : k ∈ List.range 16) :
        (do
          let down ← m.flat.isDown (UInt8.ofNat k)
          return if down then text ++ ['k', Hex.smallDigit k] else text) =
        (.ok (if m.keypad.isDownAt (UInt8.ofNat k) then text ++ ['k', Hex.smallDigit k] else text) :
          Checked (List Char)) :=
      bind_of_ok (isDown_eq m (UInt8.ofNat k)) rfl
    rw [dumpKeys, if_pos hpos]
    refine (foldlM_of_ok id (fun text k => if m.keypad.isDownAt (UInt8.ofNat k) then
      text ++ ['k', Hex.smallDigit k] else text) hstep _).trans (congrArg Except.ok ?_)
    rw [← map_val_all, List.foldl_map]
    simp only [isDownAt_ofNat]
    change List.foldl _ _ _ = _
    rw [← List.foldl_filter, List.foldl_append_eq_append, ← List.flatMap_def, Machine.dumpKeys]
    split
    · next hnone => exact absurd hpos (hup.mp hnone)
    · rfl
  · rw [dumpKeys, if_neg hpos, Machine.dumpKeys, hup.mpr hpos]
    rfl

end Flat

end ChipEight
