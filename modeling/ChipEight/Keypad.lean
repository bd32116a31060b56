import ChipEight.Key

/-!
# Keypad

Which of the sixteen keys are down, one bit for each key.
-/

namespace ChipEight

/-- The keys of a machine. -/
structure Keypad where
  /-- Bit `k` is set while key `k` is down. -/
  mask : BitVec 16
  deriving DecidableEq

namespace Keypad

/-- All keys are up. -/
def released : Keypad := ⟨0⟩

/-- Whether a key is down. -/
def isDown (p : Keypad) (k : Key) : Bool := p.mask.getLsbD k

/-- Whether the key of a register's value is down; a value that is no key counts as up. -/
def isDownAt (p : Keypad) (v : UInt8) : Bool :=
  match Key.ofNat? v.toNat with
  | some k => p.isDown k
  | none => false

/-- The keypad with a key put down or up. -/
def set (p : Keypad) (k : Key) (down : Bool) : Keypad :=
  if down then ⟨p.mask ||| BitVec.twoPow 16 k⟩ else ⟨p.mask &&& ~~~BitVec.twoPow 16 k⟩

/-- The keys that are down, in ascending order. -/
def down (p : Keypad) : List Key := Key.all.filter p.isDown

/-- The least key that is down. -/
def first? (p : Keypad) : Option Key := Key.all.find? p.isDown

@[simp] theorem isDown_released (k : Key) : released.isDown k = false := by
  simp [released, isDown]

/-- Setting a key is seen at that key and at no other. -/
@[simp] theorem isDown_set (p : Keypad) (k j : Key) (down : Bool) :
    (p.set k down).isDown j = if j = k then down else p.isDown j := by
  have hk := k.isLt
  have hj := j.isLt
  by_cases h : j = k
  · subst h
    cases down <;> simp [set, isDown, hj]
  · have hne : (j : Nat) ≠ k := fun e => h (Fin.ext e)
    cases down <;> simp [set, isDown, hj, h, hne]

end Keypad

end ChipEight
