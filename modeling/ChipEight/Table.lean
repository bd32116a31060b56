/-!
# Tables

Vectors whose entries are named by their numbers, as keys and registers are. An entry is
read with `Vector.get` and replaced with `Vector.put`; a number is below the length by its
type, so neither needs a proof.
-/

namespace ChipEight

/-- Keys, registers, and the words of a block come in sixteens. -/
instance sixteen_ne_zero : @NeZero Nat Zero.ofOfNat0 16 := ⟨by decide⟩

end ChipEight

namespace Vector

variable {α : Type} {n : Nat}

/-- The table with one entry replaced. -/
@[inline] def put (table : Vector α n) (i : Fin n) (entry : α) : Vector α n :=
  table.set i entry i.isLt

theorem get_eq_entry (table : Vector α n) (i : Fin n) :
    table.get i = getElem table i.val i.isLt := rfl

/-- A replaced entry is seen at its number and at no other. -/
@[simp] theorem get_put (table : Vector α n) (i j : Fin n) (entry : α) :
    (table.put i entry).get j = if j = i then entry else table.get j := by
  rw [get_eq_entry, get_eq_entry, put, Vector.getElem_set]
  by_cases h : j = i
  · rw [if_pos h, if_pos (congrArg Fin.val h.symm)]
  · have hne : i.val ≠ j.val := fun hv => h (Fin.ext hv.symm)
    rw [if_neg h, if_neg hne]

theorem get_put_self (table : Vector α n) (i : Fin n) (entry : α) :
    (table.put i entry).get i = entry := by
  rw [get_put, if_pos rfl]

theorem get_put_of_ne (table : Vector α n) {i j : Fin n} (h : j ≠ i) (entry : α) :
    (table.put i entry).get j = table.get j := by
  rw [get_put, if_neg h]

end Vector
