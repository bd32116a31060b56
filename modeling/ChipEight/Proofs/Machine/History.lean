import ChipEight.Machine.Operation

/-!
# Histories, written out

A run of several steps is one operation of a history. `unroll` writes every run out as the
steps that it makes, so that the machine can be looked at between any two of them;
`behind_unroll` says that the machine behind the history is the same. Properties of whole
histories are then proved by induction over single operations. `executions` keeps the
machine in front of each instruction, which tells what was executed and on what.
-/

namespace ChipEight

/-- Whether an operation makes several steps at once. -/
def Operation.isRun : Operation → Bool
  | .run _ => true
  | _ => false

/-- Whether an operation loads glyphs or a program. -/
def Operation.isLoad : Operation → Bool
  | .loadProgram _ | .loadFont _ => true
  | _ => false

namespace Machine

/-- The machine behind a history. -/
def behind (m : Machine) (history : List Operation) : Machine := (m.replay history).2

/-- The replies to a history, one to each operation. -/
def replies (m : Machine) (history : List Operation) : List Reply := (m.replay history).1

@[simp] theorem behind_nil (m : Machine) : m.behind [] = m := rfl

@[simp] theorem behind_cons (m : Machine) (operation : Operation) (rest : List Operation) :
    m.behind (operation :: rest) = (m.apply operation).2.behind rest := rfl

theorem replay_cons (m : Machine) (operation : Operation) (rest : List Operation) :
    m.replay (operation :: rest) =
      ((m.apply operation).1 :: ((m.apply operation).2.replay rest).1,
        (m.apply operation).2.behind rest) := rfl

@[simp] theorem replies_nil (m : Machine) : m.replies [] = [] := rfl

@[simp] theorem replies_cons (m : Machine) (operation : Operation) (rest : List Operation) :
    m.replies (operation :: rest) = (m.apply operation).1 :: (m.apply operation).2.replies rest :=
  rfl

theorem replies_append (m : Machine) (first second : List Operation) :
    m.replies (first ++ second) = m.replies first ++ (m.behind first).replies second := by
  induction first generalizing m with
  | nil => rfl
  | cons operation rest ih =>
    rw [List.cons_append, replies_cons, replies_cons, ih, behind_cons, List.cons_append]

theorem behind_append (m : Machine) (first second : List Operation) :
    m.behind (first ++ second) = (m.behind first).behind second := by
  induction first generalizing m with
  | nil => rfl
  | cons operation rest ih => exact ih _

/-- Loading reaches memory only, whether it succeeds or not. -/
theorem apply_of_isLoad (m : Machine) {operation : Operation} (h : operation.isLoad = true) :
    ∃ memory, (m.apply operation).2 = { m with memory := memory } := by
  cases operation with
  | loadProgram program =>
    by_cases hfits : program.length ≤ Memory.programRoom
    · exact ⟨_, by simp only [apply, loadProgram, if_pos hfits, loaded]; rfl⟩
    · exact ⟨_, by simp only [apply, loadProgram, if_neg hfits, loaded]; rfl⟩
  | loadFont glyphs =>
    by_cases hfits : glyphs.length ≤ fontRoom
    · exact ⟨_, by simp only [apply, loadFont, if_pos hfits, loaded]; rfl⟩
    · exact ⟨_, by simp only [apply, loadFont, if_neg hfits, loaded]; rfl⟩
  | _ => cases h

/-- What the host does between instructions reaches memory, keys, timers and the mark for a drawn
screen, and nothing else. -/
theorem apply_of_host (m : Machine) {operation : Operation} (hs : operation ≠ .step)
    (hr : operation.isRun = false) :
    ∃ memory dirty keypad delayTimer soundTimer,
      (m.apply operation).2 =
        { m with
          memory := memory
          dirty := dirty
          keypad := keypad
          delayTimer := delayTimer
          soundTimer := soundTimer } := by
  by_cases hl : operation.isLoad = true
  · obtain ⟨memory, hm⟩ := m.apply_of_isLoad hl
    exact ⟨memory, _, _, _, _, hm⟩
  cases operation with
  | step => exact absurd rfl hs
  | run count => cases hr
  | loadProgram program => exact absurd rfl hl
  | loadFont glyphs => exact absurd rfl hl
  | tick => exact ⟨_, _, _, _, _, rfl⟩
  | setKey k down => exact ⟨_, _, _, _, _, rfl⟩
  | clearKeys => exact ⟨_, _, _, _, _, rfl⟩
  | clearDirty => exact ⟨_, _, _, _, _, rfl⟩
  | takeFrame =>
    by_cases h : m.dirty = true
    · exact ⟨_, _, _, _, _, by simp only [apply, takeFrame, if_pos h, clearDirty]; rfl⟩
    · exact ⟨_, _, _, _, _, by simp only [apply, takeFrame, if_neg h]; rfl⟩

/-- The steps that a run of at most the given number makes; a step that faults is the last. -/
def stepsOfRun : Nat → Machine → List Operation
  | 0, _ => []
  | count + 1, m =>
    .step :: match m.step with
      | (.ok _, next) => stepsOfRun count next
      | (.error _, _) => []

/-- A history with every run written out as its steps. -/
def unroll (m : Machine) : List Operation → List Operation
  | [] => []
  | .run count :: rest => stepsOfRun count m ++ (m.apply (.run count)).2.unroll rest
  | operation :: rest => operation :: (m.apply operation).2.unroll rest

/-- An operation that is no run is kept. -/
theorem unroll_cons (m : Machine) {operation : Operation} (h : operation.isRun = false)
    (rest : List Operation) :
    m.unroll (operation :: rest) = operation :: (m.apply operation).2.unroll rest := by
  cases operation with
  | run count => cases h
  | _ => rfl

/-- A run is written out in steps. -/
theorem eq_step_of_mem_stepsOfRun {count : Nat} {m : Machine} {operation : Operation}
    (h : operation ∈ stepsOfRun count m) : operation = .step := by
  induction count generalizing m with
  | zero => cases h
  | succ count ih =>
    rw [stepsOfRun, List.mem_cons] at h
    rcases h with rfl | h
    · rfl
    · split at h
      · exact ih h
      · cases h

/-- No run is left in an unrolled history. -/
theorem isRun_of_mem_unroll {m : Machine} {history : List Operation} {operation : Operation}
    (h : operation ∈ m.unroll history) : operation.isRun = false := by
  induction history generalizing m with
  | nil => cases h
  | cons first rest ih =>
    by_cases hr : first.isRun = false
    · rw [m.unroll_cons hr, List.mem_cons] at h
      rcases h with rfl | h
      · exact hr
      · exact ih h
    · cases first with
      | run count =>
        rcases List.mem_append.mp h with h | h
        · rw [eq_step_of_mem_stepsOfRun h]
          rfl
        · exact ih h
      | _ => exact absurd rfl hr

/-- The machine behind a run does not depend on what the run would answer without a step. -/
theorem snd_run_go (last last' : Except StackFault Flow) (count : Nat) (m : Machine) :
    (run.go last count m).2 = (run.go last' count m).2 := by
  cases count <;> rfl

/-- The steps of a run lead where the run leads. -/
theorem behind_stepsOfRun (count : Nat) (m : Machine) :
    m.behind (stepsOfRun count m) = (m.run count).2 := by
  induction count generalizing m with
  | zero => rfl
  | succ count ih =>
    rw [stepsOfRun, behind_cons, run, run.go]
    change m.step.2.behind _ = _
    rcases m.step with ⟨outcome, next⟩
    cases outcome with
    | error fault => rfl
    | ok flow => exact (ih next).trans (snd_run_go _ _ _ _)

/-- Writing runs out leads to the same machine. -/
theorem behind_unroll (m : Machine) (history : List Operation) :
    m.behind (m.unroll history) = m.behind history := by
  induction history generalizing m with
  | nil => rfl
  | cons operation rest ih =>
    by_cases hr : operation.isRun = false
    · rw [m.unroll_cons hr, behind_cons, behind_cons, ih]
    · cases operation with
      | run count =>
        rw [unroll, behind_append, behind_stepsOfRun, behind_cons]
        exact ih _
      | _ => exact absurd rfl hr

/-! ### Executed instructions -/

/-- The machine in front of each step among single operations, in order. -/
def stepsFrom (m : Machine) : List Operation → List Machine
  | [] => []
  | operation :: rest =>
    (if operation = .step then [m] else []) ++ (m.apply operation).2.stepsFrom rest

/-- The machine in front of each instruction that a history executes, in order. -/
def executions (m : Machine) (history : List Operation) : List Machine :=
  m.stepsFrom (m.unroll history)

theorem stepsFrom_step (m : Machine) (rest : List Operation) :
    m.stepsFrom (.step :: rest) = m :: m.step.2.stepsFrom rest := rfl

theorem stepsFrom_of_ne (m : Machine) {operation : Operation} (h : operation ≠ .step)
    (rest : List Operation) :
    m.stepsFrom (operation :: rest) = (m.apply operation).2.stepsFrom rest := by
  rw [stepsFrom, if_neg h, List.nil_append]

end Machine

end ChipEight
