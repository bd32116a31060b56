import ChipEight.Hex
import ChipEight.Table

/-!
# Keys

The sixteen keys of the hexadecimal keypad, told apart by their values.
-/

namespace ChipEight

/-- A key by its value. -/
abbrev Key := Fin 16

namespace Key

/-- Every key in ascending order. -/
def all : List Key := List.finRange 16

/-- The key of a value, if it has one. -/
def ofNat? (n : Nat) : Option Key := if h : n < 16 then some ⟨n, h⟩ else none

/-- A key is written as `k` and its small digit. -/
def text (k : Key) : List Char := ['k', Hex.smallDigit k]

/-- What the value of a key must satisfy, in words. -/
def rangeText : String := "keycode must be in range 0 <= keycode < 16"

@[simp] theorem ofNat?_val (k : Key) : ofNat? k.val = some k := by
  simp [ofNat?]

end Key

end ChipEight
