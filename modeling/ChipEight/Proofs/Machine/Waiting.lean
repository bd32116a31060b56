import ChipEight.Proofs.Machine.Effect
import ChipEight.Proofs.Machine.History

/-!
# The mark of a waiting machine

A machine is marked as waiting by an instruction that asks for a key and finds none, and
loses the mark when such an instruction finds one. So the mark always tells of the last
executed instruction that asked for a key. A waiting machine stays in front of its
instruction, so the mark also tells of the last executed instruction of any kind, as long
as nobody puts another instruction there. Only a load can do that; `waiting_overtaken` is a
history where it does, and the mark outlives the instruction.
-/

namespace ChipEight

/-- Whether an instruction asks for a key. -/
def Instruction.asksKey : Instruction → Bool
  | .awaitKey _ => true
  | _ => false

namespace Machine

/-- Whether the next instruction asks for a key. -/
def asks (m : Machine) : Bool := m.nextInstruction.asksKey

/-- All keys are up. -/
def Untouched (m : Machine) : Prop := ∀ k, m.keypad.isDown k = false

instance (m : Machine) : Decidable m.Untouched := inferInstanceAs (Decidable (∀ _, _ = false))

/-- The next instruction asks for a key and finds none down. -/
def Stalls (m : Machine) : Prop := m.asks = true ∧ m.Untouched

instance (m : Machine) : Decidable m.Stalls := inferInstanceAs (Decidable (_ ∧ _))

/-- Only an instruction that asks for a key changes the mark. -/
theorem waiting_step (m : Machine) :
    m.step.2.waiting = if m.asks then decide m.Untouched else m.waiting := by
  rw [step_eq]
  change m.nextInstruction.waitingAfter m = _
  unfold asks
  cases m.nextInstruction with
  | awaitKey x => rfl
  | _ => rfl

/-- The host does not reach the mark. -/
theorem waiting_apply (m : Machine) {operation : Operation} (hs : operation ≠ .step)
    (hr : operation.isRun = false) : (m.apply operation).2.waiting = m.waiting := by
  obtain ⟨_, _, _, _, _, h⟩ := m.apply_of_host hs hr
  rw [h]

/-- A step that asks for a key and finds none sets the mark and does nothing else. -/
theorem step_of_untouched {m : Machine} {x : Register} (h : m.nextInstruction = .awaitKey x)
    (hup : m.Untouched) : m.step = (.ok .keyWait, { m with waiting := true }) := by
  have hnone : m.keypad.first? = none := m.keypad.first?_eq_none_iff.mpr hup
  have hback : m.counter + 2 - 2 = m.counter := UInt16.add_sub_cancel _ _
  simp only [step, h, execute, goTo, hnone, hback]

/-- A machine that stalls stays in front of its instruction. -/
theorem asks_step_of_stalls {m : Machine} (h : m.Stalls) : m.step.2.asks = true := by
  obtain ⟨hasks, hup⟩ := h
  cases hi : m.nextInstruction with
  | awaitKey x =>
    rw [step_of_untouched hi hup]
    exact hasks
  | _ =>
    rw [asks, hi] at hasks
    cases hasks

/-- Without a step and a load, the next instruction stays the same. -/
theorem nextInstruction_apply (m : Machine) {operation : Operation} (hs : operation ≠ .step)
    (hr : operation.isRun = false) (hl : operation.isLoad = false) :
    (m.apply operation).2.nextInstruction = m.nextInstruction := by
  cases operation with
  | step => exact absurd rfl hs
  | run count => cases hr
  | loadProgram program => cases hl
  | loadFont glyphs => cases hl
  | takeFrame => cases hd : m.dirty <;> simp only [apply, takeFrame, hd] <;> rfl
  | tick | setKey k down | clearKeys | clearDirty => rfl

/-- Over single operations, the mark is what the last instruction that asked for a key left. -/
theorem waiting_behind {operations : List Operation}
    (hr : ∀ operation ∈ operations, operation.isRun = false) (m : Machine) :
    (m.behind operations).waiting =
      match ((m.stepsFrom operations).filter asks).getLast? with
      | some last => decide last.Untouched
      | none => m.waiting := by
  induction operations generalizing m with
  | nil => rfl
  | cons operation rest ih =>
    have hrest := ih (fun o ho => hr o (List.mem_cons_of_mem _ ho)) (m.apply operation).2
    rw [behind_cons, hrest]
    by_cases hs : operation = .step
    · subst hs
      change (match ((m.step.2.stepsFrom rest).filter asks).getLast? with
        | some last => decide last.Untouched
        | none => m.step.2.waiting) = _
      rw [stepsFrom_step, waiting_step]
      by_cases hasks : m.asks = true
      · rw [List.filter_cons_of_pos hasks, List.getLast?_cons, if_pos hasks]
        cases ((m.step.2.stepsFrom rest).filter asks).getLast? <;> rfl
      · rw [List.filter_cons_of_neg hasks, if_neg hasks]
    · rw [stepsFrom_of_ne m hs, waiting_apply m hs (hr operation List.mem_cons_self)]

/-- A load in front of a waiting machine leaves an instruction there that asks for a key. -/
def LeavesQuestion (m : Machine) (operation : Operation) : Prop :=
  operation.isLoad = true → m.waiting = true → (m.apply operation).2.asks = true

instance (m : Machine) (operation : Operation) : Decidable (m.LeavesQuestion operation) :=
  inferInstanceAs (Decidable (_ → _ → _))

/-- No load of a history takes the instruction that asks for a key from a waiting machine. -/
def Undisturbed (m : Machine) : List Operation → Prop
  | [] => True
  | operation :: rest => m.LeavesQuestion operation ∧ (m.apply operation).2.Undisturbed rest

instance decidableUndisturbed (m : Machine) :
    (history : List Operation) → Decidable (m.Undisturbed history)
  | [] => isTrue trivial
  | operation :: rest =>
    have := decidableUndisturbed (m.apply operation).2 rest
    inferInstanceAs (Decidable (m.LeavesQuestion operation ∧ _))

theorem undisturbed_append (m : Machine) (first second : List Operation) :
    m.Undisturbed (first ++ second) ↔
      m.Undisturbed first ∧ (m.behind first).Undisturbed second := by
  induction first generalizing m with
  | nil => simp only [Undisturbed, List.nil_append, behind_nil, true_and]
  | cons operation rest ih =>
    rw [List.cons_append, Undisturbed, Undisturbed, ih, behind_cons, and_assoc]

theorem undisturbed_of_no_load {operations : List Operation}
    (h : ∀ operation ∈ operations, operation.isLoad = false) (m : Machine) :
    m.Undisturbed operations := by
  induction operations generalizing m with
  | nil => trivial
  | cons operation rest ih =>
    refine ⟨fun hl => ?_, ih (fun o ho => h o (List.mem_cons_of_mem _ ho)) _⟩
    rw [h operation List.mem_cons_self] at hl
    cases hl

/-- Writing runs out adds no load. -/
theorem undisturbed_unroll {history : List Operation} {m : Machine} (h : m.Undisturbed history) :
    m.Undisturbed (m.unroll history) := by
  induction history generalizing m with
  | nil => trivial
  | cons operation rest ih =>
    obtain ⟨hfirst, hrest⟩ := h
    by_cases hr : operation.isRun = false
    · rw [m.unroll_cons hr]
      exact ⟨hfirst, ih hrest⟩
    · cases operation with
      | run count =>
        rw [unroll, undisturbed_append, behind_stepsOfRun]
        refine ⟨undisturbed_of_no_load (fun o ho => ?_) m, ih hrest⟩
        rw [eq_step_of_mem_stepsOfRun ho]
        rfl
      | _ => exact absurd rfl hr

/-- The mark of a machine tells whether the instruction that was executed last stalled, and while it
is set the machine is in front of an instruction that asks for a key. -/
structure Tells (m : Machine) (last : Option Machine) : Prop where
  /-- The mark is set when the last instruction stalled. -/
  waiting : m.waiting = true ↔ ∃ n, last = some n ∧ n.Stalls
  /-- The instruction in front asks for a key while the mark is set. -/
  asks : m.waiting = true → m.asks = true

namespace Tells

variable {m : Machine} {last : Option Machine}

/-- A step is the instruction that was executed last. -/
theorem step (h : Tells m last) : Tells m.step.2 (some m) := by
  have hlast : (∃ n, some m = some n ∧ n.Stalls) ↔ m.Stalls := by simp
  by_cases hasks : m.asks = true
  · have hwaiting : m.step.2.waiting = true ↔ m.Stalls := by
      rw [waiting_step, if_pos hasks, decide_eq_true_iff]
      exact ⟨fun hup => ⟨hasks, hup⟩, And.right⟩
    constructor
    · rw [hwaiting, hlast]
    · intro hw
      exact asks_step_of_stalls (hwaiting.mp hw)
  · -- The machine is not marked, since a marked one would ask.
    have hclear : m.step.2.waiting = false := by
      rw [waiting_step, if_neg hasks]
      exact eq_false_of_ne_true fun hw => hasks (h.asks hw)
    constructor
    · rw [hclear, hlast]
      constructor
      · intro hw
        cases hw
      · intro hs
        exact absurd hs.1 hasks
    · intro hw
      rw [hclear] at hw
      cases hw

/-- What the host does executes no instruction, and only a load changes the next one. -/
theorem host (h : Tells m last) {operation : Operation} (hs : operation ≠ .step)
    (hr : operation.isRun = false) (hl : m.LeavesQuestion operation) :
    Tells (m.apply operation).2 last := by
  have hwaiting := waiting_apply m hs hr
  constructor
  · rw [hwaiting]
    exact h.waiting
  · intro hw
    rw [hwaiting] at hw
    by_cases hload : operation.isLoad = true
    · exact hl hload hw
    · have hnext := nextInstruction_apply m hs hr (eq_false_of_ne_true hload)
      rw [Machine.asks, hnext]
      exact h.asks hw

/-- Over undisturbed single operations, the mark keeps telling of the last step. -/
theorem behind {operations : List Operation}
    (hr : ∀ operation ∈ operations, operation.isRun = false) (h : Tells m last)
    (hu : m.Undisturbed operations) :
    Tells (m.behind operations) ((m.stepsFrom operations).getLast?.or last) := by
  induction operations generalizing m last with
  | nil => exact h
  | cons operation rest ih =>
    obtain ⟨hfirst, hrest⟩ := hu
    have hlater := fun o ho => hr o (List.mem_cons_of_mem operation ho)
    rw [behind_cons]
    by_cases hs : operation = .step
    · subst hs
      have hbehind := ih hlater h.step hrest
      rw [stepsFrom_step, List.getLast?_cons]
      cases hl : (m.step.2.stepsFrom rest).getLast? with
      | none =>
        rw [hl] at hbehind
        exact hbehind
      | some n =>
        rw [hl] at hbehind
        exact hbehind
    · rw [stepsFrom_of_ne m hs]
      exact ih hlater (h.host hs (hr operation List.mem_cons_self) hfirst) hrest

end Tells

/-- From a new machine on, the mark is set exactly where the last executed instruction that asked
for a key found none. As long as no load takes that instruction from a waiting machine, this is the
last executed instruction of any kind. -/
theorem waiting_iff_stalled (config : Config) (key : Vector UInt32 8) (history : List Operation) :
    let m := (new config key).behind history
    let executed := (new config key).executions history
    (m.waiting = true ↔
      ∃ last, (executed.filter asks).getLast? = some last ∧ last.Untouched) ∧
    ((new config key).Undisturbed history →
      (m.waiting = true ↔ ∃ last, executed.getLast? = some last ∧ last.Stalls)) := by
  intro m executed
  have hsingle : ∀ operation ∈ (new config key).unroll history, operation.isRun = false :=
    fun _ => isRun_of_mem_unroll
  have hm : m = (new config key).behind ((new config key).unroll history) :=
    (behind_unroll _ _).symm
  constructor
  · rw [hm, waiting_behind hsingle]
    change (match (executed.filter asks).getLast? with
      | some last => decide last.Untouched
      | none => false) = true ↔ _
    cases (executed.filter asks).getLast? <;> simp
  · intro hu
    have hnew : Tells (new config key) none := by
      constructor
      · constructor
        · intro hw
          cases hw
        · rintro ⟨n, hn, -⟩
          cases hn
      · intro hw
        cases hw
    have htells := hnew.behind hsingle (undisturbed_unroll hu)
    rw [← hm, Option.or_none] at htells
    exact htells.waiting

/-- A machine that nothing was done to. -/
def fresh : Machine := new .unset (Vector.replicate 8 0)

/-- The machine stalls, a load puts another question in front of it, and it stalls again, though a
key was down in between. -/
def askingAgain : List Operation :=
  [.loadProgram [0xF0, 0x0A], .run 2, .loadProgram [0xF3, 0x0A], .setKey 7 true, .clearKeys,
    .tick, .step]

/-- The load leaves a question, so the machine waits for the key of its last instruction. -/
theorem waiting_iff_stalled_askingAgain :
    fresh.Undisturbed askingAgain ∧ (fresh.behind askingAgain).waiting = true ∧
      ∃ last, (fresh.executions askingAgain).getLast? = some last ∧ last.Stalls := by
  have hu : fresh.Undisturbed askingAgain := by decide +kernel
  have hw : (fresh.behind askingAgain).waiting = true := by decide +kernel
  have hiff := (waiting_iff_stalled .unset (Vector.replicate 8 0) askingAgain).2 hu
  exact ⟨hu, hw, hiff.mp hw⟩

/-- The machine stalls, a load puts an instruction in front of it that asks for nothing, and the
machine executes it. -/
def overtaking : List Operation :=
  [.loadProgram [0xF0, 0x0A], .step, .loadProgram [0x60, 0x01], .step]

/-- The last instruction set a register, and the machine still counts as waiting. -/
theorem waiting_overtaken :
    (fresh.executions overtaking).getLast?.map nextInstruction = some (.setByte 0 1) ∧
      ¬ ((fresh.behind overtaking).waiting = true ↔
        ∃ last, (fresh.executions overtaking).getLast? = some last ∧ last.Stalls) := by
  have hlast : (fresh.executions overtaking).getLast?.map nextInstruction =
      some (.setByte 0 1) := by decide +kernel
  have hw : (fresh.behind overtaking).waiting = true := by decide +kernel
  refine ⟨hlast, fun hiff => ?_⟩
  obtain ⟨last, hl, hasks, -⟩ := hiff.mp hw
  rw [hl, Option.map_some, Option.some.injEq] at hlast
  rw [asks, hlast] at hasks
  cases hasks

end Machine

end ChipEight
