import ChipEight.Key

/-!
# Held keys

A source of presses without releases. A key goes down at a press and is released when
its hold has run out; a further press of a key that is down starts its hold anew. Times
are nanoseconds since a common start, and numbers without an upper bound: where a source of time
has one, a press with a release beyond it stops the program, and is outside this model.
-/

namespace ChipEight

/-- Presses that are held for a time. -/
structure KeyHold where
  /-- The time from a press to the release. -/
  hold : Nat
  /-- The time of its release for every key that is down. -/
  releaseAt : Vector (Option Nat) 16
  deriving DecidableEq, Repr

namespace KeyHold

/-- All keys are up. -/
def new (hold : Nat) : KeyHold := ⟨hold, Vector.replicate 16 none⟩

/-- Whether a key is down. -/
def isDown (h : KeyHold) (k : Key) : Bool := (h.releaseAt.get k).isSome

/-- Press a key; tells whether it was up before. -/
def press (h : KeyHold) (k : Key) (now : Nat) : Bool × KeyHold :=
  (!h.isDown k, { h with releaseAt := h.releaseAt.put k (some (now + h.hold)) })

/-- Whether the hold of a key has run out. -/
def isDue (h : KeyHold) (now : Nat) (k : Key) : Bool :=
  match h.releaseAt.get k with
  | some deadline => decide (deadline ≤ now)
  | none => false

/-- Release the keys whose hold has run out; tells them in ascending order. -/
def expire (h : KeyHold) (now : Nat) : List Key × KeyHold :=
  (Key.all.filter (h.isDue now),
    { h with
      releaseAt :=
        Vector.ofFn fun k : Fin 16 => if h.isDue now k then none else h.releaseAt.get k })

@[simp] theorem isDown_new (hold : Nat) (k : Key) : (new hold).isDown k = false := by
  simp [new, isDown, Vector.get_eq_entry]

/-- A pressed key is down, and no other key is touched. -/
theorem isDown_press (h : KeyHold) (k j : Key) (now : Nat) :
    (h.press k now).2.isDown j = if j = k then true else h.isDown j := by
  by_cases e : j = k
  · subst e
    simp [press, isDown]
  · simp [press, isDown, e]

/-- Exactly the keys whose hold has run out are released. -/
theorem isDown_expire (h : KeyHold) (j : Key) (now : Nat) :
    (h.expire now).2.isDown j = (h.isDown j && !h.isDue now j) := by
  cases e : h.isDue now j <;> simp [expire, isDown, Vector.get_eq_entry, e]

end KeyHold

end ChipEight
