/-!
# Call stack

Sixteen places for return addresses, the occupied ones first. Pushing onto a full stack
and popping from an empty one are refused; popping leaves the place as it was.
-/

namespace ChipEight

/-- Return addresses and the number of occupied places. -/
structure CallStack where
  /-- All places, the oldest return address first. -/
  slots : Vector UInt16 16
  /-- The number of occupied places. -/
  depth : Nat
  deriving DecidableEq

namespace CallStack

/-- No place is occupied. -/
def empty : CallStack := ⟨Vector.replicate 16 0, 0⟩

/-- The stack with one more return address, unless all places are occupied. -/
def push? (s : CallStack) (a : UInt16) : Option CallStack :=
  if h : s.depth < 16 then some ⟨s.slots.set s.depth a, s.depth + 1⟩ else none

/-- The most recent return address and the stack without it, unless no place is occupied. -/
def pop? (s : CallStack) : Option (UInt16 × CallStack) :=
  match s.depth with
  | 0 => none
  | d + 1 => some (s.slots[d]?.getD 0, { s with depth := d })

/-- No more places are occupied than there are. -/
def Fits (s : CallStack) : Prop := s.depth ≤ 16

instance (s : CallStack) : Decidable s.Fits := inferInstanceAs (Decidable (s.depth ≤ 16))

/-- Only a full stack refuses an address. -/
theorem push?_eq_none_iff (s : CallStack) (a : UInt16) : s.push? a = none ↔ 16 ≤ s.depth := by
  unfold push?
  split <;> simp <;> omega

/-- Only an empty stack has no address to give. -/
theorem pop?_eq_none_iff (s : CallStack) : s.pop? = none ↔ s.depth = 0 := by
  unfold pop?
  split <;> simp_all

/-- Popping gives back the address that was pushed, and the stack is as deep as before. -/
theorem pop?_of_push? {s t : CallStack} {a : UInt16} (h : s.push? a = some t) :
    t.pop? = some (a, { t with depth := s.depth }) := by
  unfold push? at h
  split at h
  · next hd =>
    simp only [Option.some.injEq] at h
    subst h
    simp [pop?, hd]
  · simp at h

end CallStack

end ChipEight
