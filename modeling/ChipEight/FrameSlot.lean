import ChipEight.Screen

/-!
# Frame slot

The place where a machine leaves its latest screen for whoever shows it. It holds one
frame: a frame that was not taken is replaced by the next one, and a frame is taken
once.
-/

namespace ChipEight

/-- The place of one frame between a machine and its host. -/
structure FrameSlot where
  /-- The frame that waits to be taken. -/
  pending : Option Screen
  deriving DecidableEq

namespace FrameSlot

/-- No frame waits. -/
def empty : FrameSlot := ⟨none⟩

/-- The slot with a frame, in place of one that waits. -/
def publish (_ : FrameSlot) (frame : Screen) : FrameSlot := ⟨some frame⟩

/-- The slot with a frame if there is one. -/
def publish? (s : FrameSlot) : Option Screen → FrameSlot
  | some frame => s.publish frame
  | none => s

/-- The frame that waits, and the slot without it. -/
def take (s : FrameSlot) : Option Screen × FrameSlot := (s.pending, empty)

@[simp] theorem take_publish (s : FrameSlot) (frame : Screen) :
    (s.publish frame).take = (some frame, empty) := rfl

@[simp] theorem take_empty : empty.take = (none, empty) := rfl

end FrameSlot

end ChipEight
